import TransitNet.Storing

/-! The client list of a Python station: what `remove_client` leaves in it, and the walk of the
clients at a timeout. -/
namespace TransitNet

/-! ### Cutting out a client -/

namespace ClientList

/-- The loop cuts out what it should where no match stands at the head of an unlinked list, and no two
matches stand side by side. -/
theorem sweep_eq_filter_iff (fd : ℕ) (linked : Bool) (clients : List ClientNode) :
    sweep fd linked clients = clients.filter (·.fd ≠ fd) ↔
      (linked = false → ∀ c ∈ clients.head?, c.fd ≠ fd) ∧ clients.IsChain fun a b => ¬ (a.fd = fd ∧ b.fd = fd) := by
  induction clients generalizing linked with
  | nil =>
      refine ⟨fun _ => ⟨fun _ c impossible => ?_, .nil⟩, fun _ => rfl⟩
      cases impossible
  | cons current next ih =>
      rw [sweep]
      by_cases here : current.fd = fd
      · have dropped : (current :: next).filter (·.fd ≠ fd) = next.filter (·.fd ≠ fd) :=
          List.filter_cons_of_neg (by rw [decide_eq_true_eq, not_not]; exact here)
        rw [dropped]
        cases linked with
        | false =>
            -- the head stays, and the list without the matches holds no match
            rw [if_neg (by simp)]
            constructor
            · intro same
              have member : current ∈ next.filter (·.fd ≠ fd) := same ▸ List.mem_cons_self
              have other := (List.mem_filter.mp member).2
              rw [decide_eq_true_eq] at other
              exact absurd here other
            · rintro ⟨first, _⟩
              exact absurd here (first rfl current rfl)
        | true =>
            rw [if_pos ⟨here, rfl⟩, ih false, List.isChain_cons]
            constructor
            · rintro ⟨first, chain⟩
              exact ⟨fun impossible => (by cases impossible), fun c next both => first rfl c next both.2, chain⟩
            · rintro ⟨_, apart, chain⟩
              exact ⟨fun _ c next same => apart c next ⟨here, same⟩, chain⟩
      · have kept : (current :: next).filter (·.fd ≠ fd) = current :: next.filter (·.fd ≠ fd) :=
          List.filter_cons_of_pos (decide_eq_true here)
        rw [kept, if_neg (fun both => here both.1), List.cons.injEq, ih true, List.isChain_cons]
        constructor
        · rintro ⟨_, _, chain⟩
          refine ⟨fun _ c first => ?_, fun c _ both => here both.1, chain⟩
          cases first
          exact here
        · rintro ⟨_, _, chain⟩
          exact ⟨rfl, fun impossible => (by cases impossible), chain⟩

/-- `remove_client` removes exactly the client where it is not at the head, nor behind itself. -/
theorem remove_client_removes_iff (fd : ℕ) (clients : List ClientNode) :
    remove_client fd clients = clients.filter (·.fd ≠ fd) ↔
      (∀ c ∈ clients.head?, c.fd ≠ fd) ∧ clients.IsChain fun a b => ¬ (a.fd = fd ∧ b.fd = fd) := by
  rw [remove_client, sweep_eq_filter_iff]
  exact and_congr_left fun _ => ⟨fun first => first rfl, fun first _ => first⟩

/-- The only client stays. -/
theorem only_client_stays : remove_client 0 (add_client 0 ⟨"StationB".toList, "08:00".toList, none⟩ []) =
      [⟨0, ⟨"StationB".toList, "08:00".toList, none⟩⟩] ∧
    (add_client 0 ⟨"StationB".toList, "08:00".toList, none⟩ []).filter (·.fd ≠ 0) = [] := by
  constructor <;> rfl

theorem remove_client_head (fd : ℕ) (clients : List ClientNode) :
    (remove_client fd clients).head? = clients.head? := by
  cases clients with
  | nil => rfl
  | cons current next =>
      rw [remove_client, sweep, if_neg (by simp)]
      rfl

end ClientList

/-! ### The walk at a timeout -/

namespace QueryManager

/-- The answer that is stored for a query. -/
def stored_answer (store : QueryManager) (query : PyQuery) : Option Text :=
  (store.search_query query.destination query.start_time).bind PyQuery.answers

end QueryManager

namespace PyServer

/-- The body of `while current is not None`. It does not assign `current`. -/
def pass (st : PyStation) (current : ClientNode) (s : PyServer) : PyServer × List PyDatagram :=
  match s.queries.search_query current.query.destination current.query.start_time with
  | none =>
      ask { s with queries := s.queries.add_query current.query } st
        current.query.destination current.query.start_time
  | some q =>
      match q.answers with
      | none => s.ask st q.destination q.start_time
      | some answers =>
          let s := s.tell current.fd (http_response answers)
          ({ s with clients := ClientList.remove_client current.fd s.clients }.close current.fd, [])

/-- The loop: what it leaves and what it has sent, if it has ended after so many passes. -/
def walk (st : PyStation) : ℕ → Option ClientNode → PyServer → Option (PyServer × List PyDatagram)
  | _, none, s => some (s, [])
  | 0, some _, _ => none
  | n + 1, some current, s => do
      let (s, sent) := s.pass st current
      let (s, more) ← walk st n (some current) s
      return (s, sent ++ more)

/-- What the walk is for. Each client that was listed has been handled once. -/
structure Attended (st : PyStation) (s s' : PyServer) (sent : List PyDatagram) : Prop where
  answered : ∀ c ∈ s.clients, ∀ a, s.queries.stored_answer c.query = some a →
    (c.fd, http_response a) ∈ s'.wire ∧ c ∉ s'.clients
  stored : ∀ c ∈ s.clients, s.queries.stored_answer c.query = none → s'.queries.Holds c.query.key
  asked : sent = (s.clients.filter fun c => s.queries.stored_answer c.query = none).map fun c =>
    st.ask c.query.destination c.query.start_time

/-- A timeout in the history of a station is one pass of the walk, over the head. -/
theorem timeout_eq_pass {st : PyStation} {s : PyServer} {current : ClientNode}
    (listed : s.clients.head? = some current) : s.timeout st = pass st current { s with walking := true } := by
  obtain ⟨rest, clients⟩ := List.head?_eq_some_iff.mp listed
  rw [timeout, clients]
  rfl

theorem pass_head {st : PyStation} {current : ClientNode} {s : PyServer} :
    (s.pass st current).1.clients.head? = s.clients.head? := by
  unfold pass
  split
  · rfl
  split
  · rfl
  · have told : (s.tell current.fd (http_response ‹Text›)).clients = s.clients := by
      unfold tell sendall
      split
      · rfl
      · split <;> rfl
    exact (ClientList.remove_client_head _ _).trans (congrArg List.head? told)

/-- The walk does not leave the node that it stands at. -/
theorem walk_some (st : PyStation) (n : ℕ) (current : ClientNode) (s : PyServer) :
    s.walk st n (some current) = none := by
  induction n generalizing s with
  | zero => rfl
  | succ n ih =>
      rw [walk]
      simp only [ih]
      rfl

/-- The walk ends, its clients attended, exactly where nobody waits. -/
theorem walk_ends_iff (st : PyStation) (s : PyServer) :
    (∃ n s' sent, s.walk st n s.clients.head? = some (s', sent) ∧ s.Attended st s' sent) ↔ s.clients = [] := by
  constructor
  · rintro ⟨n, s', sent, ended, _⟩
    cases listed : s.clients with
    | nil => rfl
    | cons current next =>
        rw [listed, List.head?_cons, walk_some] at ended
        cases ended
  · intro nobody
    have attended : s.Attended st s [] := by
      constructor
      · exact fun c member => by rw [nobody] at member; cases member
      · exact fun c member => by rw [nobody] at member; cases member
      · rw [nobody]
        rfl
    refine ⟨0, s, [], ?_, attended⟩
    rw [nobody]
    rfl

/-- One client waits for StationB, and the walk goes on for ever. -/
theorem askedForB_is_walked_for_ever : Reached pyStationA askedForB ∧
    askedForB.clients = [⟨0, ⟨"StationB".toList, "08:00".toList, none⟩⟩] ∧
    ∀ n, askedForB.walk pyStationA n askedForB.clients.head? = none := by
  have listed : askedForB.clients = [⟨0, ⟨"StationB".toList, "08:00".toList, none⟩⟩] := by decide +kernel
  refine ⟨.request _ _ .idle, listed, fun n => ?_⟩
  rw [listed]
  exact walk_some pyStationA n _ askedForB

end PyServer

end TransitNet
