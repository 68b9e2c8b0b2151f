import TransitNet.Clients

/-! Who is sent an answer. Descriptors are reused, connections are not. -/
namespace TransitNet

namespace Server

@[simp] theorem send_descriptors (s : Server) (fd : ℕ) (r : Response) :
    (s.send fd r).descriptors = s.descriptors := by
  rw [send]
  split <;> rfl

@[simp] theorem send_store (s : Server) (fd : ℕ) (r : Response) : (s.send fd r).store = s.store := by
  rw [send]
  split <;> rfl

@[simp] theorem send_accepted (s : Server) (fd : ℕ) (r : Response) :
    (s.send fd r).accepted = s.accepted := by
  rw [send]
  split <;> rfl

theorem send_wire {s : Server} {fd n : ℕ} (opened : s.descriptors fd = some n) (r : Response) :
    (s.send fd r).wire = s.wire ++ [(n, r)] := by
  simp only [send, opened]

/-- The clients that wait for the answer to a query. -/
def waiting (s : Server) (destination time : Text) : List CLIENT_NODE :=
  s.head_client.filter fun c => c.query.asks destination time

/-- What the delivery loop comes to: every waiting client is sent the answer, closed and removed. -/
def served (s : Server) (destination time answers : Text) : Server :=
  { s with
    head_client := s.head_client.filter fun c => !c.query.asks destination time
    descriptors := fun fd =>
      if fd ∈ (s.waiting destination time).map CLIENT_NODE.fd then none else s.descriptors fd
    wire := s.wire ++ (s.waiting destination time).filterMap fun c =>
      (s.descriptors c.fd).map fun n => (n, Response.answer answers) }

theorem served_descriptors (s : Server) (destination time answers : Text) (fd : ℕ) :
    (s.served destination time answers).descriptors fd =
      if fd ∈ (s.waiting destination time).map CLIENT_NODE.fd then none else s.descriptors fd := rfl

section Delivery
variable {s : Server} {q : QUERY}

theorem served_none (absent : find_client q s.head_client = none) :
    s.served q.destination q.start_time q.answers = s := by
  have nobody : s.waiting q.destination q.start_time = [] :=
    List.filter_eq_nil_iff.mpr (List.find?_eq_none.mp absent)
  have all : s.head_client.filter (fun c => !c.query.asks q.destination q.start_time) = s.head_client := by
    apply List.filter_eq_self.mpr
    intro c member
    rw [Bool.not_eq_true', Bool.eq_false_iff]
    exact List.find?_eq_none.mp absent c member
  rw [served, nobody, all]
  simp

/-- One turn of the delivery loop leaves the rest of the work to the next. -/
theorem served_turn {c : CLIENT_NODE} {front back : List CLIENT_NODE} {n : ℕ}
    (whole : s.head_client = front ++ c :: back) (asks : c.query.asks q.destination q.start_time = true)
    (before : ∀ a ∈ front, a.query.asks q.destination q.start_time = false)
    (other : ∀ a ∈ back, a.fd ≠ c.fd) (opened : s.descriptors c.fd = some n) :
    { (s.send c.fd (.answer q.answers)).close c.fd with head_client := front ++ back }.served
      q.destination q.start_time q.answers = s.served q.destination q.start_time q.answers := by
  let next : Server := { (s.send c.fd (.answer q.answers)).close c.fd with head_client := front ++ back }
  have early : front.filter (fun a => a.query.asks q.destination q.start_time) = [] :=
    List.filter_eq_nil_iff.mpr fun a member => by rw [before a member]; exact Bool.false_ne_true
  have waits : s.waiting q.destination q.start_time =
      c :: back.filter fun a => a.query.asks q.destination q.start_time := by
    have first := List.filter_cons_of_pos (p := fun a : CLIENT_NODE =>
      a.query.asks q.destination q.start_time) (a := c) (l := back) asks
    rw [waiting, whole, List.filter_append, early, List.nil_append, first]
  have waits' : next.waiting q.destination q.start_time =
      back.filter fun a => a.query.asks q.destination q.start_time := by
    rw [waiting, List.filter_append, early, List.nil_append]
  have stays : s.head_client.filter (fun a => !a.query.asks q.destination q.start_time) =
      (front ++ back).filter fun a => !a.query.asks q.destination q.start_time := by
    rw [whole, List.filter_append, List.filter_append, List.filter_cons_of_neg (by simp [asks])]
  have table : next.descriptors = Function.update s.descriptors c.fd none := by
    simp only [next, close, send_descriptors]
  have told : next.wire = s.wire ++ [(n, .answer q.answers)] := send_wire opened _
  have same : next.served q.destination q.start_time q.answers =
      s.served q.destination q.start_time q.answers := by
    rw [served, served, waits, waits', stays, Server.mk.injEq]
    refine ⟨rfl, ?_, ?_, ?_, ?_⟩
    · exact send_store s c.fd _
    · funext fd
      rw [table, List.map_cons]
      by_cases closed : fd = c.fd
      · rw [closed, Function.update_self, if_pos List.mem_cons_self, ite_self]
      · rw [Function.update_of_ne closed]
        exact if_congr (by rw [List.mem_cons, or_iff_right closed]) rfl rfl
    · exact send_accepted s c.fd _
    · rw [told, List.filterMap_cons_some (by rw [opened]; rfl), List.append_assoc, List.singleton_append]
      congr 2
      apply List.filterMap_congr
      intro a member
      rw [table, Function.update_of_ne (other a (List.mem_of_mem_filter member))]
  exact same

/-- The loop ends, and removing by descriptor never takes out a client that did not ask. -/
theorem deliver_eq (once : (s.head_client.map CLIENT_NODE.fd).Nodup)
    (opened : ∀ c ∈ s.head_client, ∃ n, s.descriptors c.fd = some n) :
    deliver q s = s.served q.destination q.start_time q.answers := by
  induction size : s.head_client.length using Nat.strong_induction_on generalizing s with
  | _ size ih =>
      rw [deliver]
      split
      · rename_i absent
        exact (served_none absent).symm
      · rename_i c found
        obtain ⟨asks, front, back, whole, removed, before⟩ := find_client_split once found
        have shorter := length_remove_client found
        obtain ⟨n, here⟩ := opened c (List.mem_of_find?_eq_some found)
        rw [whole, List.map_append, List.map_cons, List.nodup_middle] at once
        rw [List.nodup_cons, ← List.map_append] at once
        have apart : ∀ a ∈ front ++ back, a.fd ≠ c.fd := by
          intro a member same
          exact once.1 (List.mem_map.mpr ⟨a, member, same⟩)
        rw [removed] at shorter ⊢
        rw [ih (front ++ back).length (by omega) once.2 ?_ rfl]
        · exact served_turn whole asks before
            (fun a member => apart a (List.mem_append_right front member)) here
        · intro a member
          have kept : a ∈ s.head_client := by
            rw [whole]
            rcases List.mem_append.mp member with early | late
            · exact List.mem_append_left _ early
            · exact List.mem_append_right _ (List.mem_cons_of_mem c late)
          obtain ⟨m, there⟩ := opened a kept
          refine ⟨m, ?_⟩
          simp only [close, send_descriptors]
          rw [Function.update_of_ne (apart a member), there]

end Delivery

/-! ### What the turns of the loop keep -/

/-- The connections that have been sent an answer. -/
def answered (s : Server) : List ℕ :=
  s.wire.filterMap fun m => match m.2 with
    | .answer _ => some m.1
    | .wait => none

theorem mem_answered {s : Server} {n : ℕ} : n ∈ s.answered ↔ ∃ a, (n, Response.answer a) ∈ s.wire := by
  rw [answered, List.mem_filterMap]
  constructor
  · rintro ⟨⟨m, r⟩, member, same⟩
    cases r with
    | wait => cases same
    | answer a =>
        cases same
        exact ⟨a, member⟩
  · rintro ⟨a, member⟩
    exact ⟨(n, .answer a), member, rfl⟩

end Server

/-- One of the events completed the payload. -/
def Finished (es : List (Station × Event)) (p : PAYLOAD) : Prop :=
  ∃ st buffer outcome, (st, .datagram buffer) ∈ es ∧ udp_branch st buffer = .ok outcome ∧
    outcome.finished = some p

/-- A listed client is an open connection that asked its query; an answered connection is
closed for good, and was sent one answer to what it asked. -/
structure Server.Kept (es : List (Station × Event)) (s : Server) : Prop where
  once : (s.head_client.map CLIENT_NODE.fd).Nodup
  listed : ∀ c ∈ s.head_client, ∃ n, s.descriptors c.fd = some n ∧
    s.accepted[n]? = some (some (c.query.destination, c.query.start_time))
  apart : ∀ fd fd' n, s.descriptors fd = some n → s.descriptors fd' = some n → fd = fd'
  known : ∀ fd n, s.descriptors fd = some n → n < s.accepted.length
  unanswered : ∀ q ∈ s.store.queries, q.answers = []
  closed : ∀ n ∈ s.answered, n < s.accepted.length ∧ ∀ fd, s.descriptors fd ≠ some n
  single : s.answered.Nodup
  right : ∀ n a, (n, .answer a) ∈ s.wire → ∃ p, Finished es p ∧ craft_payload p = .ok a ∧
    s.accepted[n]? = some (some (p.destination, p.start_time))

namespace Server
variable {es : List (Station × Event)} {s : Server}

theorem kept_idle : Kept [] idle where
  once := List.nodup_nil
  listed c member := absurd member List.not_mem_nil
  apart fd fd' n opened := by cases opened
  known fd n opened := by cases opened
  unanswered q member := by
    rw [List.eq_of_mem_replicate member]
    rfl
  closed n member := absurd member List.not_mem_nil
  single := List.nodup_nil
  right n a member := absurd member List.not_mem_nil

theorem Kept.later (kept : s.Kept es) (e : Station × Event) : s.Kept (es ++ [e]) :=
  { kept with
    right := by
      intro n a member
      obtain ⟨p, ⟨st, buffer, outcome, before, ran, done⟩, crafted, asked⟩ := kept.right n a member
      exact ⟨p, ⟨st, buffer, outcome, List.mem_append_left _ before, ran, done⟩, crafted, asked⟩ }

/-- A connection that has been accepted stays what it is. -/
theorem accepted_before {n : ℕ} {asked : Option (Text × Text)} (before : n < s.accepted.length)
    (fd : ℕ) : (s.accept fd asked).accepted[n]? = s.accepted[n]? :=
  List.getElem?_append_left before

theorem Kept.accept (kept : s.Kept es) {fd : ℕ} (shut : s.descriptors fd = none)
    (asked : Option (Text × Text)) : (s.accept fd asked).Kept es := by
  have size : (s.accept fd asked).accepted.length = s.accepted.length + 1 := by
    rw [Server.accept, List.length_append, List.length_singleton]
  have table : ∀ fd', (s.accept fd asked).descriptors fd' =
      if fd' = fd then some s.accepted.length else s.descriptors fd' := fun fd' =>
    Function.update_apply _ _ _ _
  have behind : ∀ fd' n, (s.accept fd asked).descriptors fd' = some n →
      (fd' = fd ∧ n = s.accepted.length) ∨ (s.descriptors fd' = some n ∧ n < s.accepted.length) := by
    intro fd' n opened
    rw [table] at opened
    split at opened
    · exact .inl ⟨by assumption, (Option.some.inj opened).symm⟩
    · exact .inr ⟨opened, kept.known fd' n opened⟩
  refine ⟨kept.once, ?_, ?_, ?_, kept.unanswered, ?_, kept.single, ?_⟩
  · intro c member
    obtain ⟨n, opened, key⟩ := kept.listed c member
    refine ⟨n, ?_, ?_⟩
    · rw [table, if_neg (by rintro rfl; rw [shut] at opened; cases opened), opened]
    · rw [accepted_before (kept.known c.fd n opened), key]
  · intro fd₁ fd₂ n one two
    rcases behind fd₁ n one with ⟨same₁, last₁⟩ | ⟨old₁, less₁⟩ <;>
      rcases behind fd₂ n two with ⟨same₂, last₂⟩ | ⟨old₂, less₂⟩
    · rw [same₁, same₂]
    · omega
    · omega
    · exact kept.apart fd₁ fd₂ n old₁ old₂
  · intro fd' n opened
    rcases behind fd' n opened with ⟨_, rfl⟩ | ⟨_, less⟩ <;> omega
  · intro n member
    obtain ⟨less, gone⟩ := kept.closed n member
    refine ⟨by omega, fun fd' opened => ?_⟩
    rcases behind fd' n opened with ⟨_, rfl⟩ | ⟨old, _⟩
    · omega
    · exact gone fd' old
  · intro n a member
    obtain ⟨p, done, crafted, key⟩ := kept.right n a member
    refine ⟨p, done, crafted, ?_⟩
    rw [accepted_before (List.getElem?_eq_some_iff.mp key).1, key]

theorem Kept.send_wait (kept : s.Kept es) (fd : ℕ) : (s.send fd .wait).Kept es := by
  rw [send]
  split
  · rename_i n opened
    have same : answered { s with wire := s.wire ++ [(n, .wait)] } = s.answered := by
      simp only [answered, List.filterMap_append, List.filterMap_cons_none, List.filterMap_nil,
        List.append_nil]
    have old : ∀ m a, (m, Response.answer a) ∈ s.wire ++ [(n, .wait)] → (m, .answer a) ∈ s.wire := by
      intro m a member
      rcases List.mem_append.mp member with before | last
      · exact before
      · rw [List.mem_singleton] at last
        cases last
    exact
      { once := kept.once
        listed := kept.listed
        apart := kept.apart
        known := kept.known
        unanswered := kept.unanswered
        closed := by rw [same]; exact kept.closed
        single := by rw [same]; exact kept.single
        right := fun m a member => kept.right m a (old m a member) }
  · exact kept

/-- A new client, for a query that its connection has asked. -/
theorem Kept.add (kept : s.Kept es) {fd n : ℕ} (opened : s.descriptors fd = some n)
    (fresh : fd ∉ s.head_client.map CLIENT_NODE.fd) {q : QUERY}
    (asked : s.accepted[n]? = some (some (q.destination, q.start_time))) {store : Store}
    (unanswered : ∀ q ∈ store.queries, q.answers = []) :
    { s with
      store := store
      head_client := add_client fd q (remove_client fd s.head_client) }.Kept es := by
  rw [remove_client_absent fresh]
  exact
    { kept with
      once := by rw [add_client, List.map_cons, List.nodup_cons]; exact ⟨fresh, kept.once⟩
      listed := by
        intro c member
        rcases List.mem_cons.mp member with rfl | old
        · exact ⟨n, opened, asked⟩
        · exact kept.listed c old
      unanswered := unanswered }

theorem Kept.request (kept : s.Kept es) {fd : ℕ} (shut : s.descriptors fd = none)
    {destination time : Text} {s' : Server} (ran : s.request fd destination time = .ok s') :
    s'.Kept es := by
  let told := (s.accept fd (some (destination, time))).send fd .wait
  have keeps : told.Kept es := (kept.accept shut _).send_wait fd
  have opened : told.descriptors fd = some s.accepted.length := by
    rw [send_descriptors]
    exact Function.update_self fd _ _
  have asked : told.accepted[s.accepted.length]? = some (some (destination, time)) := by
    rw [send_accepted]
    exact List.getElem?_concat_length
  have fresh : fd ∉ told.head_client.map CLIENT_NODE.fd := by
    rw [send_head_client]
    intro member
    obtain ⟨c, listed, rfl⟩ := List.mem_map.mp member
    obtain ⟨n, here, _⟩ := kept.listed c listed
    rw [shut] at here
    cases here
  rw [Server.request] at ran
  split at ran
  · obtain ⟨start_time, copied, ran⟩ := ok_of_bind ran
    obtain ⟨destination', copied', ran⟩ := ok_of_bind ran
    rw [strcpy] at copied copied'
    split at copied <;> cases copied
    split at copied' <;> cases copied'
    cases ran
    refine keeps.add opened fresh asked fun q member => ?_
    rcases List.mem_or_eq_of_mem_set member with old | rfl
    · exact keeps.unanswered q old
    · rfl
  · rename_i q found
    cases ran
    obtain ⟨_, rfl, rfl⟩ := Store.search_query_some found
    exact keeps.add opened fresh asked keeps.unanswered

/-- The connections that a delivery answers. -/
theorem answered_served (s : Server) (destination time answers : Text) :
    (s.served destination time answers).answered =
      s.answered ++ ((s.waiting destination time).map CLIENT_NODE.fd).filterMap s.descriptors := by
  rw [answered, served, List.filterMap_append, List.filterMap_filterMap, List.filterMap_map]
  congr 1
  apply List.filterMap_congr
  intro c _
  rw [Function.comp_apply]
  cases s.descriptors c.fd <;> rfl

theorem mem_waiting {s : Server} {destination time : Text} {c : CLIENT_NODE} : c ∈ s.waiting destination time ↔
    c ∈ s.head_client ∧ c.query.destination = destination ∧ c.query.start_time = time := by
  rw [waiting, List.mem_filter, QUERY.asks_iff]

/-- What is still open was open before, and has not been answered. -/
theorem served_still {s : Server} {destination time answers : Text} {fd n : ℕ}
    (opened : (s.served destination time answers).descriptors fd = some n) :
    fd ∉ (s.waiting destination time).map CLIENT_NODE.fd ∧ s.descriptors fd = some n := by
  rw [served_descriptors] at opened
  split at opened
  · cases opened
  · exact ⟨by assumption, opened⟩

/-- No two clients share a descriptor, so the one that has it is the one that is answered. -/
theorem Kept.waits (kept : s.Kept es) {destination time : Text} {c : CLIENT_NODE} (member : c ∈ s.head_client)
    (answered : c.fd ∈ (s.waiting destination time).map CLIENT_NODE.fd) : c ∈ s.waiting destination time := by
  obtain ⟨c', waits, same⟩ := List.mem_map.mp answered
  rwa [← List.inj_on_of_nodup_map kept.once (mem_waiting.mp waits).1 member same]

/-- A connection that is answered now has been open, and has asked this query. -/
theorem Kept.told (kept : s.Kept es) {destination time : Text} {n : ℕ}
    (member : n ∈ ((s.waiting destination time).map CLIENT_NODE.fd).filterMap s.descriptors) :
    ∃ c ∈ s.waiting destination time, s.descriptors c.fd = some n ∧
      s.accepted[n]? = some (some (destination, time)) := by
  obtain ⟨fd, waits, opened⟩ := List.mem_filterMap.mp member
  obtain ⟨c, member, rfl⟩ := List.mem_map.mp waits
  obtain ⟨listed, rfl, rfl⟩ := mem_waiting.mp member
  obtain ⟨m, here, asked⟩ := kept.listed c listed
  rw [opened, Option.some.injEq] at here
  subst here
  exact ⟨c, member, opened, asked⟩

theorem Kept.served (kept : s.Kept es) {p : PAYLOAD} {answers : Text} (done : Finished es p)
    (crafted : craft_payload p = .ok answers) :
    (s.served p.destination p.start_time answers).Kept es := by
  refine ⟨kept.once.sublist (List.filter_sublist.map _), ?_, ?_, ?_, kept.unanswered, ?_, ?_, ?_⟩
  · intro c member
    obtain ⟨listed, stays⟩ := List.mem_filter.mp member
    obtain ⟨n, opened, asked⟩ := kept.listed c listed
    refine ⟨n, ?_, asked⟩
    rw [served_descriptors, if_neg ?_, opened]
    intro answered
    have asks := (List.mem_filter.mp (kept.waits listed answered)).2
    rw [asks] at stays
    cases stays
  · intro fd fd' n one two
    exact kept.apart fd fd' n (served_still one).2 (served_still two).2
  · intro fd n opened
    exact kept.known fd n (served_still opened).2
  · intro n member
    rw [answered_served, List.mem_append] at member
    rcases member with old | new
    · obtain ⟨less, gone⟩ := kept.closed n old
      exact ⟨less, fun fd opened => gone fd (served_still opened).2⟩
    · obtain ⟨c, waits, opened, _⟩ := kept.told new
      refine ⟨kept.known c.fd n opened, fun fd again => ?_⟩
      obtain ⟨untouched, here⟩ := served_still again
      rw [kept.apart fd c.fd n here opened] at untouched
      exact untouched (List.mem_map_of_mem waits)
  · rw [answered_served, List.nodup_append]
    refine ⟨kept.single, ?_, ?_⟩
    · apply List.Nodup.filterMap
      · intro fd fd' n one two
        exact kept.apart fd fd' n one two
      · exact kept.once.sublist (List.filter_sublist.map _)
    · intro n old m new same
      obtain ⟨c, _, opened, _⟩ := kept.told new
      exact (kept.closed n old).2 c.fd (same ▸ opened)
  · intro n a member
    rcases List.mem_append.mp member with old | new
    · exact kept.right n a old
    · obtain ⟨c, waits, sent⟩ := List.mem_filterMap.mp new
      obtain ⟨m, opened, same⟩ := Option.map_eq_some_iff.mp sent
      rw [Prod.mk.injEq, Response.answer.injEq] at same
      obtain ⟨rfl, rfl⟩ := same
      have member := List.mem_filterMap.mpr ⟨c.fd, List.mem_map_of_mem waits, opened⟩
      obtain ⟨_, _, _, asked⟩ := kept.told member
      exact ⟨p, done, crafted, asked⟩

/-- With nothing stored the new answer is the one to send. -/
theorem Kept.finished_eq (kept : s.Kept es) (st : Station) {p : PAYLOAD} {q : QUERY} {answer : Text}
    (found : s.store.search_query p.destination p.start_time = some q)
    (crafted : craft_payload p = .ok answer) (fits : answer.length < MAXDATASIZE) :
    s.finished st p = .ok (s.served p.destination p.start_time answer) := by
  obtain ⟨member, destination, start_time⟩ := Store.search_query_some found
  have first : finish st q.answers p = .ok answer := by
    rw [finish, crafted, kept.unanswered q member]
    rfl
  have copied : strcpy MAXDATASIZE (some answer) = .ok answer := if_pos fits
  have opened : ∀ c ∈ s.head_client, ∃ n, s.descriptors c.fd = some n := by
    intro c listed
    obtain ⟨n, here, _⟩ := kept.listed c listed
    exact ⟨n, here⟩
  simp only [finished, found, first, copied, bind, Except.bind, pure, Except.pure,
    deliver_eq kept.once opened, destination, start_time]

theorem Kept.finished_served (kept : s.Kept es) {st : Station} {p : PAYLOAD} {s' : Server}
    (ended : s.finished st p = .ok s') : ∃ answer, craft_payload p = .ok answer ∧
      s' = s.served p.destination p.start_time answer := by
  have whole := ended
  rw [finished] at ended
  split at ended
  · cases ended
  · rename_i q found
    obtain ⟨answers, best, ended⟩ := ok_of_bind ended
    obtain ⟨copied, fits, _⟩ := ok_of_bind ended
    rw [finish, kept.unanswered q (Store.search_query_some found).1] at best
    obtain ⟨answer, crafted, best⟩ := ok_of_bind best
    cases best
    rw [strcpy] at fits
    split at fits
    · rename_i short
      rw [kept.finished_eq st found crafted short, Except.ok.injEq] at whole
      exact ⟨_, crafted, whole.symm⟩
    · cases fits

/-- At a timeout no listed client is found closed. -/
theorem Kept.resend_ok (kept : s.Kept es) (st : Station) : ∃ sent, resend st s.descriptors s.head_client = .ok sent := by
  have opened := kept.listed
  generalize s.head_client = clients at opened
  induction clients with
  | nil => exact ⟨[], rfl⟩
  | cons c clients ih =>
      obtain ⟨rest, sent⟩ := ih fun c' member => opened c' (List.mem_cons_of_mem c member)
      obtain ⟨n, here, _⟩ := opened c List.mem_cons_self
      simp only [resend, here, sent, bind, Except.bind, pure, Except.pure]
      rw [if_neg (by simp)]
      split <;> exact ⟨_, rfl⟩

theorem Kept.turn (kept : s.Kept es) {st : Station} {e : Event} {s' : Server} {sent : List Datagram}
    (allowed : s.Allows e) (ran : s.step st e = .ok (s', sent)) : s'.Kept (es ++ [(st, e)]) := by
  cases e with
  | request fd destination time =>
      obtain ⟨_, requested, ran⟩ := ok_of_bind ran
      cases ran
      exact (kept.request allowed requested).later _
  | ignored fd =>
      cases ran
      exact (kept.accept allowed none).later _
  | timeout =>
      obtain ⟨_, _, ran⟩ := ok_of_bind ran
      cases ran
      exact kept.later _
  | datagram buffer =>
      obtain ⟨outcome, branch, ran⟩ := ok_of_bind ran
      have kept := kept.later (st, .datagram buffer)
      split at ran
      · cases ran
        exact kept
      · rename_i p done
        have complete : Finished (es ++ [(st, .datagram buffer)]) p :=
          ⟨st, buffer, outcome, List.mem_append_right _ (List.mem_singleton_self _), branch, done⟩
        obtain ⟨_, ended, ran⟩ := ok_of_bind ran
        cases ran
        obtain ⟨answer, crafted, rfl⟩ := kept.finished_served ended
        exact kept.served complete crafted

end Server

theorem Serves.kept {es : List (Station × Event)} {s : Server} (serves : Serves es s) : s.Kept es := by
  induction serves with
  | idle => exact Server.kept_idle
  | turn _ allowed ran ih => exact ih.turn allowed ran

/-- A datagram that finishes a payload can always be crafted into an answer. -/
theorem finished_crafts {st : Station} {buffer : Text} {outcome : Outcome} {p : PAYLOAD}
    (ran : udp_branch st buffer = .ok outcome) (done : outcome.finished = some p) :
    ∃ answer, craft_payload p = .ok answer := by
  obtain ⟨p₀, loaded, handled⟩ := udp_branch_ok ran
  obtain rfl := handle_finished handled done
  exact load_crafts loaded 4

/-- The answer is no longer than a datagram that a station has crafted. -/
theorem length_finished_text (p : PAYLOAD) : { p with found := 4 }.text.length ≤ p.text.length := by
  have four : printInt 4 = ['4'] := by decide
  have digits : 0 < (printInt p.found).length := by
    rw [printInt]
    split
    · exact Nat.succ_pos _
    · exact List.length_pos_of_ne_nil (Nat.toDigits_ne_nil)
  have body : { p with found := 4 }.body = p.body := rfl
  simp only [PAYLOAD.text, PAYLOAD.header, body, four, List.length_append, List.length_cons,
    List.length_nil]
  omega

theorem finished_fits {st : Station} {p₀ p : PAYLOAD} {outcome : Outcome} {answer : Text}
    (loadable : p₀.Loadable) (short : p₀.text.length < MAXDATASIZE)
    (ran : udp_branch st p₀.text = .ok outcome) (done : outcome.finished = some p)
    (crafted : craft_payload p = .ok answer) : answer.length < MAXDATASIZE := by
  rw [loadable.udp_branch] at ran
  obtain rfl := handle_finished ran done
  have sized : { p₀ with found := 4 }.Sized :=
    ⟨loadable.sized.stations, loadable.sized.address, loadable.sized.routes, loadable.sized.time⟩
  rw [craft_payload_text sized, Except.ok.injEq] at crafted
  have length := length_finished_text p₀
  rw [crafted] at length
  omega

/-- Every client that waits for a payload is answered when it finishes, nobody else is,
and no connection is answered twice or to another query. -/
theorem clients_are_answered_once {es : List (Station × Event)} {s : Server} (serves : Serves es s) :
    (s.head_client.map CLIENT_NODE.fd).Nodup ∧
    (∀ c ∈ s.head_client, ∃ n, s.descriptors c.fd = some n ∧
      s.accepted[n]? = some (some (c.query.destination, c.query.start_time))) ∧
    (∀ st, ∃ sent, s.step st .timeout = .ok (s, sent)) ∧
    (∀ st buffer outcome p q, udp_branch st buffer = .ok outcome → outcome.finished = some p →
      s.store.search_query p.destination p.start_time = some q →
        ∃ answer, craft_payload p = .ok answer ∧
          ((∃ p₀ : PAYLOAD, p₀.Loadable ∧ p₀.text.length < MAXDATASIZE ∧ buffer = p₀.text) →
            answer.length < MAXDATASIZE) ∧
          (answer.length < MAXDATASIZE → s.step st (.datagram buffer) =
            .ok (s.served p.destination p.start_time answer, outcome.sent))) ∧
    s.answered.Nodup ∧
    ∀ n a, (n, .answer a) ∈ s.wire → ∃ p, Finished es p ∧ craft_payload p = .ok a ∧
      s.accepted[n]? = some (some (p.destination, p.start_time)) := by
  have kept := serves.kept
  refine ⟨kept.once, kept.listed, fun st => ?_, ?_, kept.single, kept.right⟩
  · obtain ⟨sent, walked⟩ := kept.resend_ok st
    refine ⟨sent, ?_⟩
    simp only [Server.step, walked, bind, Except.bind, pure, Except.pure]
  · intro st buffer outcome p q ran done found
    obtain ⟨answer, crafted⟩ := finished_crafts ran done
    refine ⟨answer, crafted, ?_, fun fits => ?_⟩
    · rintro ⟨p₀, loadable, short, rfl⟩
      exact finished_fits loadable short ran done crafted
    · simp only [Server.step, ran, done, kept.finished_eq st found crafted fits, bind, Except.bind, pure,
        Except.pure]

/-! ### A client that waits for the route from StationA to StationB -/

def asked : QUERY := ⟨"08:00".toList, "StationB".toList, []⟩

/-- The state after a request on descriptor 5. -/
def oneClient : Server where
  head_client := [⟨5, asked⟩]
  store := Store.zeroed.add_query asked
  descriptors := Function.update (fun _ => none) 5 (some 0)
  accepted := [some (asked.destination, asked.start_time)]
  wire := [(0, .wait)]

theorem oneClient_serves : Serves [(twoStops.station false, .request 5 asked.destination asked.start_time)]
    oneClient := by
  have ran : Server.idle.step (twoStops.station false) (.request 5 asked.destination asked.start_time) =
      .ok (oneClient, []) := rfl
  exact Serves.idle.turn rfl ran

/-- The payload comes home on the bus at nine. -/
def homebound : PAYLOAD where
  found := 3
  hops := 2
  current := 1
  stations := ["StationA".toList, "StationB".toList]
  address := ["127.0.0.1:4002".toList, "127.0.0.1:4004".toList]
  routes := ["...".toList, "bus9".toList]
  time := ["09:00".toList, "09:20".toList]
  destination := "StationB".toList
  source := "StationA".toList
  start_time := "08:00".toList

/-- The query of a client that asks for another place. -/
def elsewhere : QUERY := ⟨"08:00".toList, "StationC".toList, []⟩

def twoClients : Server where
  head_client := [⟨6, asked⟩, ⟨5, asked⟩]
  store := Store.zeroed.add_query asked
  descriptors := Function.update oneClient.descriptors 6 (some 1)
  accepted := oneClient.accepted ++ [some (asked.destination, asked.start_time)]
  wire := [(0, .wait), (1, .wait)]

/-- Two clients wait for the same route, and a third for another. -/
def threeClients : Server where
  head_client := [⟨7, elsewhere⟩, ⟨6, asked⟩, ⟨5, asked⟩]
  store := (Store.zeroed.add_query asked).add_query elsewhere
  descriptors := Function.update twoClients.descriptors 7 (some 2)
  accepted := twoClients.accepted ++ [some (elsewhere.destination, elsewhere.start_time)]
  wire := [(0, .wait), (1, .wait), (2, .wait)]

theorem threeClients_serves : ∃ es, Serves es threeClients := by
  have free₆ : oneClient.Allows (.request 6 asked.destination asked.start_time) := rfl
  have free₇ : twoClients.Allows (.request 7 elsewhere.destination elsewhere.start_time) := rfl
  have second : oneClient.step (twoStops.station false) (.request 6 asked.destination asked.start_time) =
      .ok (twoClients, []) := rfl
  have third : twoClients.step (twoStops.station false) (.request 7 elsewhere.destination elsewhere.start_time) =
      .ok (threeClients, []) := rfl
  exact ⟨_, (oneClient_serves.turn free₆ second).turn free₇ third⟩

/-- The route is told to those who wait for it, once to each, and the third goes on waiting. -/
theorem threeClients_are_answered : ∃ s',
    threeClients.step (twoStops.station false) (.datagram homebound.text) = .ok (s', []) ∧
      s'.head_client = [⟨7, elsewhere⟩] ∧
      s'.wire = threeClients.wire ++
        [(1, .answer { homebound with found := 4 }.text), (0, .answer { homebound with found := 4 }.text)] := by
  have ran : udp_branch (twoStops.station false) homebound.text =
      .ok { sent := [], finished := some { homebound with found := 4 } } := by decide +kernel
  have found : threeClients.store.search_query homebound.destination homebound.start_time = some asked := by
    decide +kernel
  have crafted : craft_payload { homebound with found := 4 } = .ok { homebound with found := 4 }.text := rfl
  obtain ⟨es, serves⟩ := threeClients_serves
  obtain ⟨_, _, _, answers, _, _⟩ := clients_are_answered_once serves
  obtain ⟨answer, text, _, step⟩ := answers _ _ _ _ asked ran rfl found
  obtain rfl := Except.ok.inj (crafted.symm.trans text)
  exact ⟨_, step (by decide +kernel), rfl, rfl⟩

end TransitNet
