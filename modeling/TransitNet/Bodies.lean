import TransitNet.Browsers

/-! Which bodies a Python station sends. The route that comes home and the walk at a timeout send
what the store holds; a repeated request is sent what was serialized last. -/
namespace TransitNet

/-! ### What the UDP branch serializes -/

theorem update_on_arrival_kept (new_station new_address : Text) (p : PAYLOAD) :
    (update_on_arrival new_station new_address p).found = p.found ∧
      (update_on_arrival new_station new_address p).destination = p.destination ∧
      (update_on_arrival new_station new_address p).source = p.source ∧
      (update_on_arrival new_station new_address p).start_time = p.start_time := by
  rw [update_on_arrival]
  split
  · exact ⟨rfl, rfl, rfl, rfl⟩
  split <;> exact ⟨rfl, rfl, rfl, rfl⟩

/-- One payload is about what another is about, and `found` has not fallen. -/
structure PAYLOAD.Onward (p q : PAYLOAD) : Prop where
  destination : q.destination = p.destination
  source : q.source = p.source
  start_time : q.start_time = p.start_time
  found : p.found ≤ q.found
  complete : p.found = 4 → q.found = 4

namespace PyStation
variable {st : PyStation} {p q : PAYLOAD} {outcome : PyOutcome}

theorem at_destination_onward (st : PyStation) (p : PAYLOAD) : p.Onward (st.at_destination p) := by
  obtain ⟨found, destination, source, start_time⟩ := update_on_arrival_kept st.STATION_NAME st.recorded p
  rw [at_destination]
  split
  · by_cases fresh : p.found = 0
    · simp only [if_pos fresh]
      rw [if_neg (by decide)]
      exact ⟨destination, source, start_time, fresh.le.trans (by simp), fun complete => by omega⟩
    · simp only [if_neg fresh]
      split
      · rename_i riding
        exact ⟨rfl, rfl, rfl, riding.le.trans (by simp), fun complete => by omega⟩
      · exact ⟨rfl, rfl, rfl, Int.le_refl _, id⟩
  · exact ⟨rfl, rfl, rfl, Int.le_refl _, id⟩

theorem depart_onward (back : p.found = 1) (ran : st.depart p = .ok q) : p.Onward q ∧ q.found = 2 := by
  obtain ⟨_, _, ran⟩ := ok_of_bind ran
  obtain ⟨_, _, ran⟩ := ok_of_bind ran
  simp only at ran
  split at ran <;>
  · obtain ⟨_, _, ran⟩ := ok_of_bind ran
    obtain ⟨_, _, ran⟩ := ok_of_bind ran
    cases ran
    exact ⟨⟨rfl, rfl, rfl, back.le.trans (by simp), fun complete => by omega⟩, rfl⟩

theorem at_source_onward (ran : st.at_source p = .ok q) : p.Onward q := by
  rw [at_source] at ran
  split at ran
  · by_cases back : p.found = 1
    · rw [if_pos back] at ran
      obtain ⟨r, departed, ran⟩ := ok_of_bind ran
      obtain ⟨onward, riding⟩ := depart_onward back departed
      simp only [riding] at ran
      cases ran
      exact onward
    · rw [if_neg back] at ran
      obtain ⟨r, same, ran⟩ := ok_of_bind ran
      cases same
      simp only [pure, Except.pure] at ran
      split at ran <;> cases ran
      · rename_i home
        exact ⟨rfl, rfl, rfl, home.le.trans (by simp), fun complete => by omega⟩
      · exact ⟨rfl, rfl, rfl, Int.le_refl _, id⟩
  · cases ran
    exact ⟨rfl, rfl, rfl, Int.le_refl _, id⟩

theorem step_back_spec (ran : PyStation.step_back p = .ok outcome) :
    ∃ datagram, outcome = { sent := [datagram] } ∧
      datagram.message = serialize { p with current := p.current - 1 } := by
  obtain ⟨_, _, ran⟩ := ok_of_bind ran
  obtain ⟨⟨ip, port⟩, _, ran⟩ := ok_of_bind ran
  cases ran
  exact ⟨_, rfl, rfl⟩

theorem ride_spec (ran : st.ride p = .ok outcome) :
    ∃ datagram r, outcome = { sent := [datagram] } ∧ datagram.message = serialize r ∧ r.found = p.found := by
  obtain ⟨_, _, ran⟩ := ok_of_bind ran
  obtain ⟨_, _, ran⟩ := ok_of_bind ran
  obtain ⟨_, _, ran⟩ := ok_of_bind ran
  simp only at ran
  split at ran
  · obtain ⟨_, _, ran⟩ := ok_of_bind ran
    obtain ⟨_, _, ran⟩ := ok_of_bind ran
    obtain ⟨_, _, ran⟩ := ok_of_bind ran
    obtain ⟨_, _, ran⟩ := ok_of_bind ran
    obtain ⟨⟨ip, port⟩, _, ran⟩ := ok_of_bind ran
    cases ran
    exact ⟨_, _, rfl, rfl, rfl⟩
  · obtain ⟨_, _, ran⟩ := ok_of_bind ran
    obtain ⟨_, _, ran⟩ := ok_of_bind ran
    obtain ⟨_, _, ran⟩ := ok_of_bind ran
    obtain ⟨_, _, ran⟩ := ok_of_bind ran
    obtain ⟨_, _, ran⟩ := ok_of_bind ran
    obtain ⟨_, _, ran⟩ := ok_of_bind ran
    obtain ⟨⟨ip, port⟩, _, ran⟩ := ok_of_bind ran
    cases ran
    exact ⟨_, _, rfl, rfl, rfl⟩

/-- A pass through the branch completes the payload, or it leaves the text of one that is not
complete. -/
theorem dispatch_spec (ran : st.dispatch q = .ok outcome) : (q.found = 4 ∧ outcome.finished = some q) ∨
    (q.found ≠ 4 ∧ outcome.finished = none ∧
      ∀ datagram ∈ outcome.sent, ∃ r, r.found = q.found ∧ datagram.message = serialize r) := by
  rw [dispatch] at ran
  split at ran
  · cases ran
    exact .inl ⟨by assumption, rfl⟩
  rename_i incomplete
  refine .inr ⟨incomplete, ?_⟩
  have back : ∀ {o}, PyStation.step_back q = .ok o → o.finished = none ∧
      ∀ datagram ∈ o.sent, ∃ r, r.found = q.found ∧ datagram.message = serialize r := by
    intro o stepped
    obtain ⟨datagram, rfl, message⟩ := step_back_spec stepped
    refine ⟨rfl, fun d member => ⟨{ q with current := q.current - 1 }, rfl, ?_⟩⟩
    rw [List.mem_singleton.mp member, message]
  split at ran
  · exact back ran
  split at ran
  · obtain ⟨datagram, r, rfl, message, same⟩ := ride_spec ran
    refine ⟨rfl, fun d member => ⟨r, same, ?_⟩⟩
    rw [List.mem_singleton.mp member, message]
  split at ran
  · exact back ran
  · cases ran
    refine ⟨rfl, fun d member => ?_⟩
    obtain ⟨n, _, rfl⟩ := List.mem_map.mp member
    exact ⟨_, (update_on_arrival_kept _ _ q).1, rfl⟩

theorem handle_spec (ran : st.handle p = .ok outcome) : ∃ q, p.Onward q ∧ st.dispatch q = .ok outcome := by
  obtain ⟨q, source, ran⟩ := ok_of_bind ran
  have first := at_destination_onward st p
  have second := at_source_onward source
  exact ⟨q, ⟨second.destination.trans first.destination, second.source.trans first.source,
    second.start_time.trans first.start_time, first.found.trans second.found,
    fun complete => second.complete (first.complete complete)⟩, ran⟩

/-- Only a complete payload finishes, under the question it came with. -/
theorem handle_finishes (cut : p.Cut) (ran : st.handle p = .ok outcome) {r : PAYLOAD}
    (done : outcome.finished = some r) : r.found = 4 ∧ r.Cut := by
  obtain ⟨q, onward, dispatched⟩ := handle_spec ran
  rcases dispatch_spec dispatched with ⟨complete, finished⟩ | ⟨_, finished, _⟩
  · rw [finished] at done
    cases done
    exact ⟨complete, by rw [onward.destination]; exact cut.destination,
      by rw [onward.source]; exact cut.source, by rw [onward.start_time]; exact cut.start_time⟩
  · rw [finished] at done
    cases done

theorem handle_leaves (nonneg : 0 ≤ p.found) (ran : st.handle p = .ok outcome)
    (passes : outcome.finished = none) : ∃ r, 0 ≤ r.found ∧ r.found ≠ 4 ∧ st.left p outcome = serialize r := by
  obtain ⟨q, onward, dispatched⟩ := handle_spec ran
  rcases dispatch_spec dispatched with ⟨_, finished⟩ | ⟨incomplete, _, sends⟩
  · rw [finished] at passes
    cases passes
  rw [left]
  split
  · rename_i datagram rest sent
    obtain ⟨r, same, message⟩ := sends datagram (by rw [sent]; exact List.mem_cons_self)
    exact ⟨r, by rw [same]; exact nonneg.trans onward.found, by rw [same]; exact incomplete, message⟩
  · have same := (update_on_arrival_kept st.STATION_NAME st.recorded p).1
    exact ⟨_, by rw [same]; exact nonneg,
      by rw [same]; exact fun complete => incomplete (onward.complete complete), rfl⟩

end PyStation

/-! ### What the turns of the loop keep -/

/-- One of the events completed the payload. -/
def PyFinished (st : PyStation) (es : List (PyServer × PyEvent)) (p : PAYLOAD) : Prop :=
  ∃ s data q outcome, (s, PyEvent.datagram data) ∈ es ∧ deserialize data = .ok q ∧ st.handle q = .ok outcome ∧
    outcome.finished = some p

namespace PyFinished
variable {st : PyStation} {es : List (PyServer × PyEvent)} {p : PAYLOAD}

theorem later (finished : PyFinished st es p) (e : PyServer × PyEvent) : PyFinished st (es ++ [e]) p := by
  obtain ⟨s, data, q, outcome, member, rest⟩ := finished
  exact ⟨s, data, q, outcome, List.mem_append_left _ member, rest⟩

theorem complete (finished : PyFinished st es p) : p.found = 4 ∧ p.Cut := by
  obtain ⟨_, data, q, outcome, _, read, handled, done⟩ := finished
  exact PyStation.handle_finishes (deserialize_cut read).2 handled done

end PyFinished

/-- What `message` holds: the route that answers a question, or the text of another payload. -/
def Written (st : PyStation) (es : List (PyServer × PyEvent)) : Option Text → Option (Text × Text) → Prop
  | none, answering => answering = none
  | some message, some key => ∃ p, PyFinished st es p ∧ p.key = key ∧ serialize p = message
  | some message, none => ∃ r : PAYLOAD, 0 ≤ r.found ∧ r.found ≠ 4 ∧ serialize r = message

/-- The store holds routes that came home, each under its question; a listed client stands for what its
connection asked. -/
structure PyServer.Kept (st : PyStation) (es : List (PyServer × PyEvent)) (s : PyServer) : Prop where
  stored : ∀ q ∈ s.queries.queries, ∀ answers, q.answers = some answers →
    ∃ p, PyFinished st es p ∧ p.key = q.key ∧ serialize p = answers
  listed : ∀ c ∈ s.clients, c.query.answers = none ∧ s.accepted[c.fd]? = some (some c.query.key)
  written : Written st es s.message s.answering
  bound : s.message = none → ∀ q ∈ s.queries.queries, q.answers = none
  shut : ∀ n ∈ s.closed, n < s.accepted.length

namespace PyServer
variable {st : PyStation} {es : List (PyServer × PyEvent)} {s s' : PyServer}

theorem kept_idle : Kept st [] idle where
  stored _ member := absurd member List.not_mem_nil
  listed _ member := absurd member List.not_mem_nil
  written := rfl
  bound _ _ member := absurd member List.not_mem_nil
  shut _ member := absurd member List.not_mem_nil

theorem Kept.later (kept : s.Kept st es) (e : PyServer × PyEvent) : s.Kept st (es ++ [e]) where
  stored := by
    intro q member answers has
    obtain ⟨p, finished, rest⟩ := kept.stored q member answers has
    exact ⟨p, finished.later e, rest⟩
  listed := kept.listed
  written := by
    have written := kept.written
    generalize s.message = message, s.answering = answering at written
    unfold Written at written ⊢
    split at written
    · exact written
    · obtain ⟨p, finished, rest⟩ := written
      exact ⟨p, finished.later e, rest⟩
    · exact written
  bound := kept.bound
  shut := kept.shut

/-- A connection that has been accepted stays what it is. -/
theorem accepted_before {n : ℕ} {asked key : Option (Text × Text)} (there : s.accepted[n]? = some key) :
    (s.accept asked).accepted[n]? = some key := by
  rw [accept, List.getElem?_append_left (List.getElem?_eq_some_iff.mp there).1, there]

theorem Kept.accept (kept : s.Kept st es) (asked : Option (Text × Text)) : (s.accept asked).Kept st es :=
  { kept with
    listed := fun c member => ⟨(kept.listed c member).1, accepted_before (kept.listed c member).2⟩
    shut := by
      intro n member
      have before := kept.shut n member
      rw [PyServer.accept, List.length_append]
      omega }

theorem Kept.close (kept : s.Kept st es) {fd : ℕ} (there : fd < s.accepted.length) : (s.close fd).Kept st es :=
  { kept with
    shut := by
      intro n member
      rcases List.mem_cons.mp member with rfl | before
      · exact there
      · exact kept.shut n before }

theorem Kept.sendall (kept : s.Kept st es) (fd : ℕ) (body : Text) : (s.sendall fd body).Kept st es := by
  unfold PyServer.sendall
  split
  · exact kept
  · exact { kept with }

theorem Kept.remove (kept : s.Kept st es) (fd : ℕ) :
    { s with clients := ClientList.remove_client fd s.clients }.Kept st es :=
  { kept with listed := fun c member => kept.listed c (ClientList.remove_client_mem member) }

theorem Kept.add_client (kept : s.Kept st es) {fd : ℕ} {q : PyQuery} (blank : q.answers = none)
    (asked : s.accepted[fd]? = some (some q.key)) :
    { s with clients := ClientList.add_client fd q s.clients }.Kept st es :=
  { kept with
    listed := by
      intro c member
      rcases List.mem_cons.mp member with rfl | before
      · exact ⟨blank, asked⟩
      · exact kept.listed c before }

theorem Kept.add_query (kept : s.Kept st es) {q : PyQuery} (blank : q.answers = none) :
    { s with queries := s.queries.add_query q }.Kept st es :=
  { kept with
    stored := by
      intro q' member answers has
      rcases QueryManager.mem_add_query member with before | rfl
      · exact kept.stored q' before answers has
      · rw [blank] at has
        cases has
    bound := by
      intro nothing q' member
      rcases QueryManager.mem_add_query member with before | rfl
      · exact kept.bound nothing q' before
      · exact blank }

theorem Kept.write (kept : s.Kept st es) {message : Text} {answering : Option (Text × Text)}
    (written : Written st es (some message) answering) : (s.write message answering).Kept st es :=
  { kept with
    written := written
    bound := fun nothing => absurd nothing (Option.some_ne_none message) }

theorem Kept.ask (kept : s.Kept st es) (destination start_time : Text) :
    (s.ask st destination start_time).1.Kept st es :=
  kept.write ⟨init_payload destination st.STATION_NAME start_time, Int.le_refl 0, by simp [init_payload, defaultPayload], rfl⟩

theorem Kept.question (kept : s.Kept st es) {dest tm : Text}
    (asked : s.accepted[s.client_socket]? = some (some (dest, tm))) : (s.question st dest tm).1.Kept st es := by
  have removed := kept.remove s.client_socket
  have there := (List.getElem?_eq_some_iff.mp asked).1
  unfold PyServer.question
  simp only
  split
  · refine Kept.ask ?_ dest tm
    exact (removed.add_client (q := { destination := dest, start_time := tm }) rfl asked).add_query rfl
  split
  · refine Kept.ask ?_ dest tm
    exact removed.add_client (q := { destination := dest, start_time := tm }) rfl asked
  split
  · exact removed.close there
  · refine Kept.close (removed.sendall s.client_socket _) ?_
    unfold PyServer.sendall
    split <;> exact there

theorem asked_last (s : PyServer) (key : Option (Text × Text)) :
    (s.accept key).client_socket = s.accepted.length ∧ (s.accept key).accepted[s.accepted.length]? = some key := by
  refine ⟨?_, List.getElem?_concat_length⟩
  rw [client_socket, PyServer.accept, List.length_append]
  rfl

theorem Kept.request (kept : s.Kept st es) (current_time : Text) (received : Option Text) :
    (s.request st current_time received).1.Kept st es := by
  unfold PyServer.request
  split
  · exact (kept.accept none).close (by rw [PyServer.accept, List.length_append]; exact Nat.lt_succ_self _)
  split
  · exact kept.accept none
  · obtain ⟨last, asked⟩ := asked_last s (some _)
    exact (kept.accept (some _)).question (by rw [last, asked])

theorem Kept.timeout (kept : s.Kept st es) : (s.timeout st).1.Kept st es := by
  unfold PyServer.timeout
  split
  · exact kept
  rename_i current rest clients
  have walking : { s with walking := true }.Kept st es := { kept with }
  obtain ⟨blank, asked⟩ := kept.listed current (by rw [clients]; exact List.mem_cons_self)
  have there := (List.getElem?_eq_some_iff.mp asked).1
  simp only
  split
  · exact (walking.add_query blank).ask _ _
  split
  · exact walking.ask _ _
  · refine Kept.close (Kept.remove ?_ _) ?_
    · unfold PyServer.tell
      split
      · exact walking
      · exact walking.sendall _ _
    · unfold PyServer.tell
      split
      · exact there
      · unfold PyServer.sendall
        split <;> exact there

/-- The best answer is a route of the same question. -/
theorem Kept.better (kept : s.Kept st es) {p : PAYLOAD} (finished : PyFinished st es p) {q : PyQuery}
    (stored : q ∈ s.queries.queries) (same : q.key = p.key) {answers : Text}
    (best : better q.answers p = .ok answers) :
    ∃ r, PyFinished st es r ∧ r.key = p.key ∧ serialize r = answers := by
  unfold PyServer.better at best
  split at best
  · exact ⟨p, finished, rfl, Except.ok.inj best⟩
  · rename_i old has
    obtain ⟨_, _, best⟩ := ok_of_bind best
    obtain ⟨_, _, best⟩ := ok_of_bind best
    obtain ⟨_, _, best⟩ := ok_of_bind best
    obtain ⟨_, _, best⟩ := ok_of_bind best
    obtain ⟨_, _, best⟩ := ok_of_bind best
    rw [← Except.ok.inj best]
    split
    · exact ⟨p, finished, rfl, rfl⟩
    · obtain ⟨r, finished', key, text⟩ := kept.stored q stored old has
      exact ⟨r, finished', key.trans same, text⟩

theorem Kept.answer (kept : s.Kept st es) {r : PAYLOAD} (finished : PyFinished st es r)
    {destination start_time : Text} (key : r.key = (destination, start_time)) (bound : s.message ≠ none) :
    { s with queries := s.queries.answer destination start_time (serialize r) }.Kept st es :=
  { kept with
    stored := by
      intro q member answers has
      rcases QueryManager.mem_answer member with before | ⟨same, new⟩
      · exact kept.stored q before answers has
      · exact ⟨r, finished, key.trans same.symm, Option.some.inj (new.symm.trans has)⟩
    bound := fun nothing => absurd nothing bound }

/-- What `found == 4` does to a payload that meets its query: the store is given a route, and the
first client that waits for it is sent the same. -/
theorem Kept.finish_spec (kept : s.Kept st es) {p : PAYLOAD} (finished : PyFinished st es p)
    (ran : s.finish p = .ok s') : ∃ r t, PyFinished st es r ∧ r.key = p.key ∧ t.Kept st es ∧
      t.wire = s.wire ∧ t.accepted = s.accepted ∧
      (s' = t ∨ ∃ c ∈ t.clients, c.query.key = p.key ∧
        s' = { t.sendall c.fd (http_response (serialize r)) with
          clients := ClientList.remove_client c.fd t.clients }.close c.fd) := by
  unfold PyServer.finish at ran
  simp only at ran
  split at ran
  · cases ran
  rename_i target_query found
  obtain ⟨member, same⟩ := QueryManager.search_query_some found
  have written : (s.write (serialize p) (some p.key)).Kept st es := kept.write ⟨p, finished, rfl, rfl⟩
  obtain ⟨answers, best, ran⟩ := ok_of_bind ran
  obtain ⟨r, finished', key, rfl⟩ := written.better finished member same best
  refine ⟨r, _, finished', key, written.answer finished' key (Option.some_ne_none _), rfl, rfl, ?_⟩
  split at ran
  · cases ran
    exact .inl rfl
  · rename_i c waits
    cases ran
    obtain ⟨listed, asks⟩ := ClientList.find_client_some waits
    refine .inr ⟨c, listed, asks, ?_⟩
    unfold PyServer.sendall
    split <;> rfl

theorem Kept.finish (kept : s.Kept st es) {p : PAYLOAD} (finished : PyFinished st es p)
    (ran : s.finish p = .ok s') : s'.Kept st es := by
  obtain ⟨r, t, _, _, keeps, _, _, rfl | ⟨c, member, _, rfl⟩⟩ := kept.finish_spec finished ran
  · exact keeps
  · have there := (List.getElem?_eq_some_iff.mp (keeps.listed c member).2).1
    have sent := keeps.sendall c.fd (http_response (serialize r))
    have clients : (t.sendall c.fd (http_response (serialize r))).clients = t.clients := by
      unfold PyServer.sendall
      split <;> rfl
    rw [← clients]
    refine (sent.remove c.fd).close ?_
    unfold PyServer.sendall
    split <;> exact there

/-- A turn of the loop keeps all this. -/
theorem Kept.turn (kept : s.Kept st es) {e : PyEvent} {sent : List PyDatagram}
    (ran : s.step st e = .ok (s', sent)) : s'.Kept st (es ++ [(s, e)]) := by
  have later := kept.later (s, e)
  cases e with
  | request current_time received =>
      obtain rfl : (s.request st current_time received).1 = s' := congrArg Prod.fst (Except.ok.inj ran)
      exact later.request current_time received
  | timeout =>
      obtain rfl : (s.timeout st).1 = s' := congrArg Prod.fst (Except.ok.inj ran)
      exact later.timeout
  | datagram data =>
      obtain ⟨q, read, ran⟩ := ok_of_bind ran
      obtain ⟨outcome, handled, ran⟩ := ok_of_bind ran
      split at ran
      · rename_i p done
        obtain ⟨_, ended, ran⟩ := ok_of_bind ran
        cases ran
        refine later.finish (p := p) ⟨s, data, q, outcome, ?_, read, handled, done⟩ ended
        exact List.mem_append_right es (List.mem_singleton_self _)
      · rename_i passes
        obtain ⟨r, nonneg, incomplete, left⟩ := PyStation.handle_leaves (deserialize_cut read).1 handled passes
        rw [left] at ran
        cases ran
        exact later.write ⟨r, nonneg, incomplete, rfl⟩

/-! ### The bodies -/

/-- A body is a route that came home, for the question of its connection. -/
def Right (st : PyStation) (es : List (PyServer × PyEvent)) (s : PyServer) (m : ℕ × Text) : Prop :=
  ∃ p, PyFinished st es p ∧ s.accepted[m.1]? = some (some p.key) ∧ m.2 = http_response (serialize p)

/-- A request for a query that has an answer comes while `message` is a route for that query. -/
def Fresh (s : PyServer) : PyEvent → Prop
  | .request current_time (some request) => ∀ key ∈ parse_query current_time request,
      ∀ same_query ∈ s.queries.search_query key.1 key.2, same_query.answers ≠ none → s.answering = some key
  | .request _ none | .timeout | .datagram _ => True

/-- A body that no route for the question of its connection accounts for. -/
def Wrong (s : PyServer) (m : ℕ × Text) : Prop :=
  ∃ key, s.accepted[m.1]? = some (some key) ∧
    ∀ p : PAYLOAD, p.found = 4 → p.Cut → p.key = key → m.2 ≠ http_response (serialize p)

theorem Right.not_wrong {m : ℕ × Text} (right : Right st es s m) : ¬ s.Wrong m := by
  rintro ⟨key, asked, unaccounted⟩
  obtain ⟨p, finished, asked', body⟩ := right
  rw [asked, Option.some.injEq, Option.some.injEq] at asked'
  exact unaccounted p finished.complete.1 finished.complete.2 asked'.symm body

theorem sendall_accepted (s : PyServer) (fd : ℕ) (body : Text) : (s.sendall fd body).accepted = s.accepted := by
  unfold sendall
  split <;> rfl

theorem mem_sendall {fd : ℕ} {body : Text} {m : ℕ × Text} (member : m ∈ (s.sendall fd body).wire) :
    m ∈ s.wire ∨ m = (fd, body) := by
  unfold sendall at member
  split at member
  · exact .inl member
  · exact (List.mem_append.mp member).imp_right List.mem_singleton.mp

theorem sendall_wire (s : PyServer) (fd : ℕ) (body : Text) :
    ∀ m ∈ s.wire, m ∈ (s.sendall fd body).wire := by
  intro m member
  unfold sendall
  split
  · exact member
  · exact List.mem_append_left _ member

/-- What a question that has been answered before is sent at once. -/
def repeated (s : PyServer) (dest tm : Text) : Option (ℕ × Text) := do
  let same_query ← s.queries.search_query dest tm
  let _ ← same_query.answers
  let message ← s.message
  return (s.client_socket, http_response message)

theorem question_wire (opened : s.client_socket ∉ s.closed) (dest tm : Text) :
    (s.question st dest tm).1.accepted = s.accepted ∧
      (s.question st dest tm).1.wire = s.wire ++ (s.repeated dest tm).toList := by
  unfold question repeated
  simp only
  cases found : s.queries.search_query dest tm with
  | none => exact ⟨rfl, (List.append_nil _).symm⟩
  | some q =>
    cases has : q.answers with
    | none =>
        simp only [has, bind, Option.bind]
        exact ⟨rfl, (List.append_nil _).symm⟩
    | some answers =>
      cases holds : s.message with
      | none =>
          simp only [has, bind, Option.bind]
          exact ⟨rfl, (List.append_nil _).symm⟩
      | some message =>
          simp only [has, bind, Option.bind]
          unfold sendall
          rw [if_neg (by exact opened)]
          exact ⟨rfl, rfl⟩

/-- What has been asked and sent stays. -/
structure Grows (s s' : PyServer) : Prop where
  accepted : ∀ {n : ℕ} {key}, s.accepted[n]? = some key → s'.accepted[n]? = some key
  wire : ∀ m ∈ s.wire, m ∈ s'.wire

theorem Right.later {m : ℕ × Text} (right : Right st es s m) (grows : s.Grows s') (e : PyServer × PyEvent) :
    Right st (es ++ [e]) s' m := by
  obtain ⟨p, finished, asked, body⟩ := right
  exact ⟨p, finished.later e, grows.accepted asked, body⟩

theorem Wrong.later {m : ℕ × Text} (wrong : s.Wrong m) (grows : s.Grows s') : s'.Wrong m := by
  obtain ⟨key, asked, unaccounted⟩ := wrong
  exact ⟨key, grows.accepted asked, unaccounted⟩

/-- The body that a connection is sent at once. -/
def reply (s : PyServer) (current_time : Text) (received : Option Text) : Option (ℕ × Text) := do
  let request ← received
  let (dest, tm) ← parse_query current_time request
  (s.accept (some (dest, tm))).repeated dest tm

theorem Kept.request_wire (kept : s.Kept st es) (current_time : Text) (received : Option Text) :
    (s.request st current_time received).1.accepted = s.accepted ++ [received.bind (parse_query current_time)] ∧
      (s.request st current_time received).1.wire = s.wire ++ (s.reply current_time received).toList := by
  unfold PyServer.request reply
  cases received with
  | none => exact ⟨rfl, (List.append_nil _).symm⟩
  | some request =>
    cases parsed : parse_query current_time request with
    | none =>
        simp only [Option.bind, bind, parsed]
        exact ⟨rfl, (List.append_nil _).symm⟩
    | some key =>
        obtain ⟨dest, tm⟩ := key
        simp only [Option.bind, bind, parsed]
        obtain ⟨last, _⟩ := asked_last s (some (dest, tm))
        have opened : (s.accept (some (dest, tm))).client_socket ∉ (s.accept (some (dest, tm))).closed := by
          intro shut
          have before := kept.shut _ shut
          omega
        exact question_wire opened dest tm

theorem Kept.request_grows (kept : s.Kept st es) (current_time : Text) (received : Option Text) :
    s.Grows (s.request st current_time received).1 := by
  obtain ⟨accepted, wire⟩ := kept.request_wire current_time received
  refine ⟨fun {n key} there => ?_, fun m member => ?_⟩
  · rw [accepted, List.getElem?_append_left (List.getElem?_eq_some_iff.mp there).1, there]
  · rw [wire]
    exact List.mem_append_left _ member

/-- What a connection is sent at once comes from `message`. -/
theorem reply_iff {current_time : Text} {received : Option Text} {m : ℕ × Text} :
    m ∈ s.reply current_time received ↔ ∃ request key same_query message, received = some request ∧
      parse_query current_time request = some key ∧ s.queries.search_query key.1 key.2 = some same_query ∧
      same_query.answers ≠ none ∧ s.message = some message ∧ m = (s.accepted.length, http_response message) := by
  constructor
  · intro sent
    obtain ⟨request, rfl, sent⟩ := Option.bind_eq_some_iff.mp sent
    obtain ⟨⟨dest, tm⟩, parsed, sent⟩ := Option.bind_eq_some_iff.mp sent
    obtain ⟨same_query, found, sent⟩ := Option.bind_eq_some_iff.mp sent
    obtain ⟨answers, has, sent⟩ := Option.bind_eq_some_iff.mp sent
    obtain ⟨message, holds, sent⟩ := Option.bind_eq_some_iff.mp sent
    cases sent
    rw [(asked_last s (some (dest, tm))).1]
    exact ⟨request, _, same_query, message, rfl, parsed, found, by rw [has]; exact Option.some_ne_none _,
      holds, rfl⟩
  · rintro ⟨request, ⟨dest, tm⟩, same_query, message, rfl, parsed, found, has, holds, rfl⟩
    obtain ⟨answers, has⟩ := Option.ne_none_iff_exists'.mp has
    have sent : (s.accept (some (dest, tm))).repeated dest tm =
        some ((s.accept (some (dest, tm))).client_socket, http_response message) := by
      unfold repeated
      refine Option.bind_eq_some_iff.mpr ⟨same_query, found, Option.bind_eq_some_iff.mpr ⟨answers, has, ?_⟩⟩
      exact Option.bind_eq_some_iff.mpr ⟨message, holds, rfl⟩
    rw [(asked_last s (some (dest, tm))).1] at sent
    rw [Option.mem_def, reply]
    exact Option.bind_eq_some_iff.mpr ⟨request, rfl, Option.bind_eq_some_iff.mpr ⟨_, parsed, sent⟩⟩

theorem Kept.fresh_right (kept : s.Kept st es) {current_time : Text} {received : Option Text}
    (fresh : s.Fresh (.request current_time received)) {m : ℕ × Text} (sent : m ∈ s.reply current_time received) :
    Right st es (s.request st current_time received).1 m := by
  obtain ⟨request, key, same_query, message, rfl, parsed, found, has, holds, rfl⟩ := reply_iff.mp sent
  have answering := fresh key parsed same_query found has
  have written := kept.written
  rw [holds, answering] at written
  obtain ⟨p, finished, rfl, rfl⟩ := written
  refine ⟨p, finished, ?_, rfl⟩
  rw [(kept.request_wire _ _).1, Option.bind_some, parsed]
  exact List.getElem?_concat_length

/-- What `message` holds otherwise is no route for the question. -/
theorem Kept.message_other (kept : s.Kept st es) {key : Text × Text} (other : s.answering ≠ some key)
    {p : PAYLOAD} (complete : p.found = 4) (cut : p.Cut) (same : p.key = key) :
    s.message ≠ some (serialize p) := by
  intro holds
  have written := kept.written
  rw [holds] at written
  cases route : s.answering with
  | none =>
      rw [route] at written
      obtain ⟨r, nonneg, incomplete, text⟩ := written
      exact incomplete ((serialize_found nonneg (by omega) text).trans complete)
  | some key' =>
      rw [route] at written other
      obtain ⟨r, finished, rfl, text⟩ := written
      exact other (congrArg some ((finished.complete.2.key_eq cut text).trans same))

theorem Kept.stale_wrong (kept : s.Kept st es) {current_time : Text} {received : Option Text}
    (stale : ¬ s.Fresh (.request current_time received)) :
    ∃ m ∈ (s.request st current_time received).1.wire, (s.request st current_time received).1.Wrong m := by
  cases received with
  | none => exact absurd trivial stale
  | some request =>
      simp only [Fresh, not_forall] at stale
      obtain ⟨key, parsed, same_query, found, has, other⟩ := stale
      obtain ⟨accepted, wire⟩ := kept.request_wire current_time (some request)
      cases holds : s.message with
      | none => exact absurd (kept.bound holds same_query (QueryManager.search_query_some found).1) has
      | some message =>
          have sent := reply_iff.mpr ⟨request, key, same_query, message, rfl, parsed, found, has, holds, rfl⟩
          refine ⟨(s.accepted.length, http_response message), ?_, key, ?_, ?_⟩
          · rw [wire]
            exact List.mem_append_right _ (Option.mem_toList.mpr sent)
          · rw [accepted, Option.bind_some, parsed]
            exact List.getElem?_concat_length
          · intro p complete cut same body
            refine kept.message_other other complete cut same ?_
            rw [holds, http_response_inj.mp body]

/-- A stored route is sent to a client that asked for it. -/
theorem Kept.send_right (kept : s.Kept st es) {c : ClientNode} (listed : c ∈ s.clients) {r : PAYLOAD}
    (finished : PyFinished st es r) (key : r.key = c.query.key) :
    let t := s.sendall c.fd (http_response (serialize r))
    s.Grows t ∧ ∀ m ∈ t.wire, m ∈ s.wire ∨ Right st es t m := by
  refine ⟨⟨fun there => ?_, sendall_wire s c.fd _⟩, fun m member => ?_⟩
  · rw [sendall_accepted, there]
  · rcases mem_sendall member with before | rfl
    · exact .inl before
    · refine .inr ⟨r, finished, ?_, rfl⟩
      rw [sendall_accepted, key, (kept.listed c listed).2]

theorem Kept.tell_right (kept : s.Kept st es) {c : ClientNode} (listed : c ∈ s.clients) {r : PAYLOAD}
    (finished : PyFinished st es r) (key : r.key = c.query.key) :
    let t := s.tell c.fd (http_response (serialize r))
    s.Grows t ∧ ∀ m ∈ t.wire, m ∈ s.wire ∨ Right st es t m := by
  unfold tell
  split
  · exact ⟨⟨id, fun m member => member⟩, fun m member => .inl member⟩
  · exact kept.send_right listed finished key

theorem Kept.timeout_right (kept : s.Kept st es) : s.Grows (s.timeout st).1 ∧
    ∀ m ∈ (s.timeout st).1.wire, m ∈ s.wire ∨ Right st es (s.timeout st).1 m := by
  have quiet : s.Grows s := ⟨id, fun m member => member⟩
  unfold PyServer.timeout
  split
  · exact ⟨quiet, fun m member => .inl member⟩
  rename_i current rest clients
  simp only
  split
  · exact ⟨⟨id, fun m member => member⟩, fun m member => .inl member⟩
  rename_i q found
  split
  · exact ⟨⟨id, fun m member => member⟩, fun m member => .inl member⟩
  rename_i answers has
  obtain ⟨stored, asks⟩ := QueryManager.search_query_some found
  obtain ⟨r, finished, key, rfl⟩ := kept.stored q stored answers has
  have listed : current ∈ s.clients := by
    rw [clients]
    exact List.mem_cons_self
  have walking : { s with walking := true }.Kept st es := { kept with }
  obtain ⟨grows, right⟩ := walking.tell_right listed finished (key.trans asks)
  exact ⟨⟨grows.accepted, grows.wire⟩, right⟩

theorem Kept.finish_right (kept : s.Kept st es) {p : PAYLOAD} (finished : PyFinished st es p)
    (ran : s.finish p = .ok s') : s.Grows s' ∧ ∀ m ∈ s'.wire, m ∈ s.wire ∨ Right st es s' m := by
  obtain ⟨r, t, finished', key, keeps, wire, accepted, rfl | ⟨c, listed, asks, rfl⟩⟩ :=
    kept.finish_spec finished ran
  · refine ⟨⟨fun there => ?_, fun m member => ?_⟩, fun m member => .inl ?_⟩
    · rw [accepted, there]
    · rw [wire]
      exact member
    · rw [← wire]
      exact member
  · obtain ⟨grows, right⟩ := keeps.send_right listed finished' (key.trans asks.symm)
    refine ⟨⟨fun there => grows.accepted ?_, fun m member => grows.wire m ?_⟩, fun m member => ?_⟩
    · rw [accepted, there]
    · rw [wire]
      exact member
    · rw [← wire]
      exact right m member

/-- What a turn sends is right, but for a repeated request that is not fresh. -/
theorem Kept.turn_right (kept : s.Kept st es) {e : PyEvent} {sent : List PyDatagram}
    (ran : s.step st e = .ok (s', sent)) : s.Grows s' ∧
      (s.Fresh e → ∀ m ∈ s'.wire, m ∈ s.wire ∨ Right st (es ++ [(s, e)]) s' m) ∧
      (¬ s.Fresh e → ∃ m ∈ s'.wire, s'.Wrong m) := by
  have later := kept.later (s, e)
  cases e with
  | request current_time received =>
      obtain rfl : (s.request st current_time received).1 = s' := congrArg Prod.fst (Except.ok.inj ran)
      refine ⟨kept.request_grows _ _, fun fresh m member => ?_, kept.stale_wrong⟩
      rw [(later.request_wire _ _).2, List.mem_append, Option.mem_toList] at member
      exact member.imp_right (later.fresh_right fresh)
  | timeout =>
      obtain rfl : (s.timeout st).1 = s' := congrArg Prod.fst (Except.ok.inj ran)
      obtain ⟨grows, right⟩ := later.timeout_right
      exact ⟨grows, fun _ => right, fun stale => absurd trivial stale⟩
  | datagram data =>
      obtain ⟨q, read, ran⟩ := ok_of_bind ran
      obtain ⟨outcome, handled, ran⟩ := ok_of_bind ran
      split at ran
      · rename_i p done
        obtain ⟨_, ended, ran⟩ := ok_of_bind ran
        cases ran
        have finished : PyFinished st (es ++ [(s, .datagram data)]) p :=
          ⟨s, data, q, outcome, List.mem_append_right es (List.mem_singleton_self _), read, handled, done⟩
        obtain ⟨grows, right⟩ := later.finish_right finished ended
        exact ⟨grows, fun _ => right, fun stale => absurd trivial stale⟩
      · cases ran
        exact ⟨⟨id, fun m member => member⟩, fun _ m member => .inl member, fun stale => absurd trivial stale⟩

end PyServer

namespace PyServes
variable {st : PyStation} {es : List (PyServer × PyEvent)} {s : PyServer}

theorem kept (serves : PyServes st es s) : s.Kept st es := by
  induction serves with
  | idle => exact PyServer.kept_idle
  | turn _ _ ran ih => exact ih.turn ran

theorem right (serves : PyServes st es s) (fresh : ∀ e ∈ es, e.1.Fresh e.2) :
    ∀ m ∈ s.wire, PyServer.Right st es s m := by
  induction serves with
  | idle => exact fun m member => absurd member List.not_mem_nil
  | @turn es s s' e sent before _ ran ih =>
      obtain ⟨grows, right, _⟩ := before.kept.turn_right ran
      intro m member
      have last := fresh (s, e) (List.mem_append_right es (List.mem_singleton_self _))
      rcases right last m member with old | new
      · exact (ih (fun e earlier => fresh e (List.mem_append_left _ earlier)) m old).later grows (s, e)
      · exact new

theorem wrong (serves : PyServes st es s) {e : PyServer × PyEvent} (met : e ∈ es) (stale : ¬ e.1.Fresh e.2) :
    ∃ m ∈ s.wire, s.Wrong m := by
  induction serves with
  | idle => cases met
  | @turn es s s' e' sent before _ ran ih =>
      obtain ⟨grows, _, wrong⟩ := before.kept.turn_right ran
      rcases List.mem_append.mp met with earlier | last
      · obtain ⟨m, member, body⟩ := ih earlier
        exact ⟨m, grows.wire m member, body.later grows⟩
      · rw [List.mem_singleton.mp last] at stale
        exact wrong stale

end PyServes

/-- In every run, every body is a finished payload for the question of its connection exactly if every
repeated request for an answered query came before another payload was serialized. -/
theorem bodies_are_right_iff {st : PyStation} {es : List (PyServer × PyEvent)} {s : PyServer}
    (serves : PyServes st es s) :
    (∀ m ∈ s.wire, PyServer.Right st es s m) ↔ ∀ e ∈ es, e.1.Fresh e.2 := by
  constructor
  · intro right e met
    by_contra stale
    obtain ⟨m, member, wrong⟩ := serves.wrong met stale
    exact (right m member).not_wrong wrong
  · exact serves.right

/-- A route to StationB that has come back to StationA. -/
def backFromB : PAYLOAD where
  found := 3
  hops := 2
  current := 1
  stations := ["StationA".toList, "StationB".toList]
  address := ["127.0.0.1:4002".toList, "127.0.0.1:4004".toList]
  routes := ["...".toList, "bus1".toList]
  time := ["08:15".toList, "08:35".toList]
  destination := "StationB".toList
  source := "StationA".toList
  start_time := "08:00".toList

def toB : PyEvent := .request "12:00".toList (some "GET /?to=StationB&time=08:00 HTTP/1.1".toList)

def toC : PyEvent := .request "12:00".toList (some "GET /?to=StationC&time=08:00 HTTP/1.1".toList)

/-- The same question twice, and nothing in between but its answer. -/
def askedTwice : List (PyServer × PyEvent) × PyServer :=
  PyServer.play pyStationA [toB, .datagram (serialize backFromB), toB]

theorem askedTwice_right_iff : askedTwice.2.wire.map Prod.fst = [0, 1] ∧ ((∀ m ∈ askedTwice.2.wire, PyServer.Right pyStationA askedTwice.1 askedTwice.2 m) ↔
    ∀ e ∈ askedTwice.1, e.1.Fresh e.2) :=
  ⟨by decide +kernel, bodies_are_right_iff (PyServer.play_serves pyStationA _)⟩

/-- Another question is asked before the first is repeated. -/
def askedAcross : List (PyServer × PyEvent) × PyServer :=
  PyServer.play pyStationA [toB, .datagram (serialize backFromB), toC, toB]

/-- The third connection, which asks for StationB, is sent the init payload for StationC. -/
theorem askedAcross_is_wrong : PyServes pyStationA askedAcross.1 askedAcross.2 ∧
    askedAcross.2.accepted[2]? = some (some ("StationB".toList, "08:00".toList)) ∧
    (2, http_response "0 0 0     StationC StationA 08:00;".toList) ∈ askedAcross.2.wire ∧
    ∀ p : PAYLOAD, p.found = 4 →
      http_response "0 0 0     StationC StationA 08:00;".toList ≠ http_response (serialize p) := by
  have text : "0 0 0     StationC StationA 08:00;".toList =
      serialize (init_payload "StationC".toList "StationA".toList "08:00".toList) := by decide +kernel
  refine ⟨PyServer.play_serves pyStationA _, by decide +kernel, by decide +kernel, fun p complete body => ?_⟩
  rw [http_response_inj, text] at body
  have same := serialize_found (Int.le_refl 0) (by omega) body
  rw [complete] at same
  exact absurd same (by decide)

end TransitNet
