import TransitNet.Network

/-! What a station sends on: every way in which a pass through the UDP branch changes a payload
before it leaves, read off the branch itself. -/
namespace TransitNet

section Inversion
variable {st : Station} {p : PAYLOAD}

theorem slot_ok {xs : List Text} {i : ℤ} {s : Text} (read : slot xs i = .ok s) :
    ∃ k : ℕ, i = k ∧ xs[k]? = some s := by
  rw [slot] at read
  split at read
  · cases read
  · split at read
    · cases read
      exact ⟨i.toNat, by omega, by assumption⟩
    · cases read

/-- An address is only looked up for a station on the path. -/
theorem get_ip_port_ok {which : ℤ} {target : Text × Text} (read : get_ip_port p which = .ok target) :
    1 ≤ which ∧ which ≤ p.address.length := by
  obtain ⟨_, found, _⟩ := ok_of_bind read
  obtain ⟨k, place, there⟩ := slot_ok found
  have inside := (List.getElem?_eq_some_iff.mp there).1
  omega

theorem step_back_sent (h : p.Sized) {outcome : Outcome} (ran : step_back p = .ok outcome) :
    (2 ≤ p.current ∧ p.current ≤ p.hops + 1) ∧
      ∀ d ∈ outcome.sent, d.text = { p with current := p.current - 1 }.text := by
  obtain ⟨target, found, ran⟩ := ok_of_bind ran
  obtain ⟨text, crafted, ran⟩ := ok_of_bind ran
  cases ran
  have sized : { p with current := p.current - 1 }.Sized := ⟨h.stations, h.address, h.routes, h.time⟩
  rw [craft_payload_text sized, Except.ok.injEq] at crafted
  have range := get_ip_port_ok found
  have count := h.address
  simp only at range
  refine ⟨by omega, fun d member => ?_⟩
  rw [List.mem_singleton] at member
  rw [member, crafted]

theorem ride_sent (h : p.Sized) {slots : ℤ} (room : slots = p.hops) {outcome : Outcome}
    (ran : ride st slots p = .ok outcome) :
    ∃ k t next, p.current = (k + 1 : ℕ) ∧ p.time[k]? = some t ∧ p.stations[k + 1]? = some next ∧
      ∀ d ∈ outcome.sent, d.text = (p.ridden k (st.leg t next)).text := by
  obtain ⟨t, read, ran⟩ := ok_of_bind ran
  obtain ⟨next, onward, ran⟩ := ok_of_bind ran
  obtain ⟨k, before, now⟩ := slot_ok read
  obtain ⟨j, place, there⟩ := slot_ok onward
  obtain rfl : j = k + 1 := by omega
  obtain ⟨h₁, h₂, h₃, h₄⟩ := id h
  have inside := (List.getElem?_eq_some_iff.mp there).1
  have w₃ := writeSlot_old slots p.routes (k := k + 1) (st.leg t next).2 (by omega) (by omega)
  have w₄ := writeSlot_old slots p.time (k := k + 1) (st.leg t next).1 (by omega) (by omega)
  refine ⟨k, t, next, place, now, there, ?_⟩
  have after : ((k + 1 : ℕ) : ℤ) + 1 = (k + 2 : ℕ) := by omega
  have known := craft_payload_text (h.ridden k (st.leg t next))
  simp only [PAYLOAD.ridden] at known
  simp only [place, arrivalAt_search, w₃, w₄, after, known, bind, Except.bind] at ran
  obtain ⟨target, _, ran⟩ := ok_of_bind ran
  cases ran
  intro d member
  rw [List.mem_singleton] at member
  rw [member]
  rfl

end Inversion

/-- What a station may make of a payload before it sends it on. -/
inductive Station.Sends (st : Station) (p : PAYLOAD) : PAYLOAD → Prop
  | flooded (fresh : p.found = 0) (elsewhere : p.destination ≠ st.station_name)
      (unreached : ∃ n ∈ st.Neighbours, n.addr_and_port ∉ p.address) : Sends st p (p.visited st blank blank)
  | turned (fresh : p.found = 0) (here : p.destination = st.station_name) : Sends st p (p.turned st)
  | departed (back : p.found = 1) (here : p.source = st.station_name) {k : ℕ} {t next : Text}
      (place : p.current = (k + 1 : ℕ)) (onward : p.stations[k + 1]? = some next)
      (now : (p.time.set 0 (st.departure p.start_time next))[k]? = some t) :
      Sends st p ((p.departed (st.departure p.start_time next)).ridden k (st.leg t next))
  | rode (riding : p.found = 2) (elsewhere : p.destination ≠ st.station_name) {k : ℕ} {t next : Text}
      (place : p.current = (k + 1 : ℕ)) (onward : p.stations[k + 1]? = some next) (now : p.time[k]? = some t) :
      Sends st p (p.ridden k (st.leg t next))
  | passed (phase : p.found = 1 ∧ p.source ≠ st.station_name ∨ p.found = 3)
      (place : 2 ≤ p.current ∧ p.current ≤ p.hops + 1) : Sends st p { p with current := p.current - 1 }
  | arrived (riding : p.found = 2) (here : p.destination = st.station_name)
      (place : 2 ≤ p.current ∧ p.current ≤ p.hops + 1) : Sends st p { p with found := 3, current := p.current - 1 }

section Sends
variable {st : Station} {p : PAYLOAD}

theorem PAYLOAD.Sized.departed (h : p.Sized) (departure : Text) : (p.departed departure).Sized := by
  refine ⟨h.stations, h.address, h.routes, ?_⟩
  rw [PAYLOAD.departed, List.length_set]
  exact h.time

/-- At a station that is destination and source at once `stations[current]` lies behind
the slots that are allocated. -/
theorem handle_own {st : Station} {p : PAYLOAD} (h : p.Sized) (fresh : p.found = 0)
    (here : p.destination = st.station_name) (own : p.source = st.station_name) :
    handle st p.slots p = .error .index := by
  let p' := p.visited st st.firstSlot.route_name st.firstSlot.arrival_time
  have destination : at_destination st p.slots p = .ok ({ p' with found := 1 }, [0, 0]) := by
    simp only [at_destination, if_pos here, fresh, record_eq h fresh, bind, Except.bind, pure,
      Except.pure, if_true, p']
  have behind : slot p'.stations p'.current = .error .index := by
    have count : (p'.stations.length : ℤ) = p'.hops :=
      (h.visited st st.firstSlot.route_name st.firstSlot.arrival_time).stations
    have low := h.stations
    have next : p'.current = p'.hops := rfl
    have full : p'.hops = p.hops + 1 := rfl
    rw [slot, if_neg (by omega), List.getElem?_eq_none (by omega)]
  have source : at_source st p.slots { p' with found := 1 } = .error .index := by
    simp only [at_source, if_pos (show p'.source = st.station_name from own), if_true, behind, bind,
      Except.bind]
  simp only [handle, destination, source, bind, Except.bind]

theorem sends_looking (h : p.Sized) (fresh : p.found = 0) {outcome : Outcome}
    (ran : handle st p.slots p = .ok outcome) : ∀ d ∈ outcome.sent, ∃ q, st.Sends p q ∧ d.text = q.text := by
  by_cases here : p.destination = st.station_name
  · by_cases own : p.source = st.station_name
    · rw [handle_own h fresh here own] at ran
      cases ran
    · let q : PAYLOAD := { p.visited st st.firstSlot.route_name st.firstSlot.arrival_time with found := 1 }
      have destination : at_destination st p.slots p = .ok (q, [0, 0]) := by
        simp only [at_destination, if_pos here, fresh, record_eq h fresh, bind, Except.bind, pure,
          Except.pure, if_true, q]
      have source : at_source st p.slots q = .ok (q, []) := by
        rw [at_source, if_neg]
        exact own
      have grown := h.visited st st.firstSlot.route_name st.firstSlot.arrival_time
      have sized : q.Sized := ⟨grown.stations, grown.address, grown.routes, grown.time⟩
      have turned : { q with current := q.current - 1 } = p.turned st := by
        simp only [q, PAYLOAD.turned, PAYLOAD.visited, Int.add_sub_cancel]
      have back : dispatch st p.slots q = step_back q := rfl
      simp only [handle, destination, source, back, bind, Except.bind] at ran
      obtain ⟨o, stepped, ran⟩ := ok_of_bind ran
      cases ran
      intro d member
      exact ⟨_, .turned fresh here, by rw [(step_back_sent sized stepped).2 d member, turned]⟩
  · rw [handle_flood h fresh here] at ran
    cases ran
    intro d member
    obtain ⟨n, unreached, rfl⟩ := List.mem_map.mp member
    obtain ⟨neighbour, away⟩ := List.mem_filter.mp unreached
    exact ⟨_, .flooded fresh here ⟨n, neighbour, of_decide_eq_true away⟩, rfl⟩

/-- On the way back a payload only counts down, until the source fills in the first leg. -/
theorem sends_back (h : p.Sized) (back : p.found = 1) {outcome : Outcome}
    (ran : handle st p.slots p = .ok outcome) : ∀ d ∈ outcome.sent, ∃ q, st.Sends p q ∧ d.text = q.text := by
  have room : p.slots = p.hops := by rw [PAYLOAD.slots, back]; rfl
  have destination : at_destination st p.slots p = .ok (p, []) := by
    simp only [at_destination, back]
    split <;> rfl
  by_cases here : p.source = st.station_name
  · have count := h.time
    have names := h.stations
    simp only [handle, destination, at_source, if_pos here, back, if_true, bind, Except.bind] at ran
    obtain ⟨⟨p', glanced⟩, source, ran⟩ := ok_of_bind ran
    obtain ⟨next, onward, source⟩ := ok_of_bind source
    obtain ⟨k, place, there⟩ := slot_ok onward
    have inside := (List.getElem?_eq_some_iff.mp there).1
    have written := writeSlot_old p.slots p.time (k := 0) (st.departure p.start_time next) (by omega) (by omega)
    rw [Nat.cast_zero] at written
    simp only [departureAt_search, written] at source
    cases source
    have departing := h.departed (st.departure p.start_time next)
    have riding : dispatch st p.slots (p.departed (st.departure p.start_time next)) =
        ride st p.slots (p.departed (st.departure p.start_time next)) := rfl
    obtain ⟨o, rode, ran⟩ := ok_of_bind ran
    obtain ⟨j, t, next', place', now, there', sent⟩ := ride_sent departing room (riding ▸ rode)
    cases ran
    obtain rfl : k = j + 1 := by
      have same : p.current = (j + 1 : ℕ) := place'
      omega
    obtain rfl : next = next' := Option.some.inj (there.symm.trans there')
    exact fun d member => ⟨_, .departed back here place' there now, sent d member⟩
  · have source : at_source st p.slots p = .ok (p, []) := by
      rw [at_source, if_neg here]
    have passing : dispatch st p.slots p = step_back p := by
      simp only [dispatch, back]
      rfl
    simp only [handle, destination, source, passing, bind, Except.bind] at ran
    obtain ⟨o, stepped, ran⟩ := ok_of_bind ran
    cases ran
    obtain ⟨place, sent⟩ := step_back_sent h stepped
    exact fun d member => ⟨_, .passed (.inl ⟨back, here⟩) place, sent d member⟩

theorem sends_riding (h : p.Sized) (riding : p.found = 2) {outcome : Outcome}
    (ran : handle st p.slots p = .ok outcome) : ∀ d ∈ outcome.sent, ∃ q, st.Sends p q ∧ d.text = q.text := by
  have room : p.slots = p.hops := by rw [PAYLOAD.slots, riding]; rfl
  by_cases here : p.destination = st.station_name
  · have destination : at_destination st p.slots p = .ok ({ p with found := 3 }, []) := by
      simp only [at_destination, if_pos here, riding]
      rfl
    have sized : { p with found := 3 }.Sized := ⟨h.stations, h.address, h.routes, h.time⟩
    by_cases own : p.source = st.station_name
    · have source : at_source st p.slots { p with found := 3 } = .ok ({ p with found := 4 }, []) := by
        simp only [at_source, if_pos own]
        rfl
      simp only [handle, destination, source, dispatch, bind, Except.bind, if_true] at ran
      cases ran
      exact fun d member => absurd member List.not_mem_nil
    · have source : at_source st p.slots { p with found := 3 } = .ok ({ p with found := 3 }, []) := by
        rw [at_source, if_neg own]
      have back : dispatch st p.slots { p with found := 3 } = step_back { p with found := 3 } := rfl
      simp only [handle, destination, source, back, bind, Except.bind] at ran
      obtain ⟨o, stepped, ran⟩ := ok_of_bind ran
      cases ran
      obtain ⟨place, sent⟩ := step_back_sent sized stepped
      exact fun d member => ⟨_, .arrived riding here place, sent d member⟩
  · have destination : at_destination st p.slots p = .ok (p, []) := by
      rw [at_destination, if_neg here]
    have source : at_source st p.slots p = .ok (p, []) := by
      simp only [at_source, riding]
      split <;> rfl
    have boarding : dispatch st p.slots p = ride st p.slots p := by
      simp only [dispatch, riding]
      rfl
    simp only [handle, destination, source, boarding, bind, Except.bind] at ran
    obtain ⟨o, rode, ran⟩ := ok_of_bind ran
    obtain ⟨k, t, next, place, now, there, sent⟩ := ride_sent h room rode
    cases ran
    exact fun d member => ⟨_, .rode riding here place there now, sent d member⟩

theorem sends_home (h : p.Sized) (home : p.found = 3) {outcome : Outcome}
    (ran : handle st p.slots p = .ok outcome) : ∀ d ∈ outcome.sent, ∃ q, st.Sends p q ∧ d.text = q.text := by
  by_cases here : p.source = st.station_name
  · rw [handle_finish home here] at ran
    cases ran
    exact fun d member => absurd member List.not_mem_nil
  · have destination : at_destination st p.slots p = .ok (p, []) := by
      simp only [at_destination, home]
      split <;> rfl
    have source : at_source st p.slots p = .ok (p, []) := by
      rw [at_source, if_neg here]
    have passing : dispatch st p.slots p = step_back p := by
      simp only [dispatch, home]
      rfl
    simp only [handle, destination, source, passing, bind, Except.bind] at ran
    obtain ⟨o, stepped, ran⟩ := ok_of_bind ran
    cases ran
    obtain ⟨place, sent⟩ := step_back_sent h stepped
    exact fun d member => ⟨_, .passed (.inr home) place, sent d member⟩

/-- A payload in no phase is complete, or has no slot to write to. -/
theorem sends_nothing (other : p.found ≠ 0 ∧ p.found ≠ 1 ∧ p.found ≠ 2 ∧ p.found ≠ 3)
    {outcome : Outcome} (ran : handle st p.slots p = .ok outcome) : outcome.sent = [] := by
  obtain ⟨not0, not1, not2, not3⟩ := other
  have destination : at_destination st p.slots p = .ok (p, []) := by
    simp only [at_destination, if_neg not0, if_neg not2]
    split <;> rfl
  have source : at_source st p.slots p = .ok (p, []) := by
    simp only [at_source, if_neg not1, if_neg not3]
    split <;> rfl
  simp only [handle, destination, source, bind, Except.bind] at ran
  obtain ⟨o, dispatched, ran⟩ := ok_of_bind ran
  cases ran
  simp only [dispatch, if_neg not3, if_neg not2, if_neg not1] at dispatched
  split at dispatched
  · cases dispatched
    rfl
  · have full : p.slots = p.hops := by rw [PAYLOAD.slots, if_neg not0]
    have closed : writeSlot p.slots p.hops st.recorded p.address = .error .index := by
      rw [writeSlot, if_neg]
      omega
    simp only [flood, record, closed, bind, Except.bind] at dispatched
    cases dispatched

/-- All that leaves a station is one of its ways of changing the payload. -/
theorem handle_sends (h : p.Sized) {outcome : Outcome} (ran : handle st p.slots p = .ok outcome) :
    ∀ d ∈ outcome.sent, ∃ q, st.Sends p q ∧ d.text = q.text := by
  by_cases looking : p.found = 0
  · exact sends_looking h looking ran
  · by_cases back : p.found = 1
    · exact sends_back h back ran
    · by_cases riding : p.found = 2
      · exact sends_riding h riding ran
      · by_cases home : p.found = 3
        · exact sends_home h home ran
        · rw [sends_nothing ⟨looking, back, riding, home⟩ ran]
          exact fun d member => absurd member List.not_mem_nil

end Sends

/-! ### The changes keep to the limits of the fields -/

section Loadable
variable {st : Station} {p : PAYLOAD}

/-- A payload that has one station more is loaded as it was sent. -/
theorem PAYLOAD.Loadable.visited (h : p.Loadable) {route time : Text}
    (name : Token ' ' 60 st.station_name) (recorded : Token ' ' 54 st.recorded)
    (hr : Token ' ' 60 route) (ht : Token ' ' 5 time) (small : p.hops + 1 < MAXDATASIZE) :
    (p.visited st route time).Loadable := by
  have sized := h.sized.visited st route time
  have each : ∀ {limit : ℕ} {xs : List Text} {v : Text}, (∀ s ∈ xs, Token ' ' limit s) →
      Token ' ' limit v → ∀ s ∈ xs ++ [v], Token ' ' limit s := by
    intro limit xs v old new s member
    rcases List.mem_append.mp member with inside | last
    · exact old s inside
    · rw [List.mem_singleton.mp last]
      exact new
  have bounds : 0 ≤ p.hops + 1 ∧ p.hops + 1 ≤ INT_MAX := by
    have low := h.hops.1
    simp only [MAXDATASIZE] at small
    simp only [INT_MAX]
    omega
  exact
    { sized
      found := h.found
      hops := bounds
      current := bounds
      stations := each h.stations name
      address := each h.address recorded
      routes := each h.routes hr
      time := each h.time ht
      destination := h.destination
      source := h.source
      start_time := h.start_time }

theorem PAYLOAD.Loadable.moved (h : p.Loadable) {found current : ℤ} (phase : 0 ≤ found ∧ found ≤ 4)
    (place : 0 ≤ current ∧ current ≤ p.hops) :
    { p with found := found, current := current }.Loadable := by
  have small := h.hops.2
  refine ⟨⟨h.sized.stations, h.sized.address, h.sized.routes, h.sized.time⟩, ?_, h.hops, ?_, h.stations,
    h.address, h.routes, h.time, h.destination, h.source, h.start_time⟩
  · simp only [INT_MAX]
    omega
  · simp only
    omega

theorem mem_set_token {limit i : ℕ} {xs : List Text} {v : Text} (old : ∀ s ∈ xs, Token ' ' limit s)
    (new : Token ' ' limit v) : ∀ s ∈ xs.set i v, Token ' ' limit s := by
  intro s member
  rcases List.mem_or_eq_of_mem_set member with inside | rfl
  · exact old s inside
  · exact new

theorem PAYLOAD.Loadable.departed (h : p.Loadable) {departure : Text} (ht : Token ' ' 5 departure) :
    (p.departed departure).Loadable := by
  have found : (0 : ℤ) ≤ 2 ∧ (2 : ℤ) ≤ INT_MAX := by decide
  refine ⟨⟨h.sized.stations, h.sized.address, h.sized.routes, ?_⟩, found, h.hops, h.current, h.stations,
    h.address, h.routes, mem_set_token h.time ht, h.destination, h.source, h.start_time⟩
  rw [PAYLOAD.departed, List.length_set]
  exact h.sized.time

theorem PAYLOAD.Loadable.ridden (h : p.Loadable) {k : ℕ} {leg : Text × Text} (ht : Token ' ' 5 leg.1)
    (hr : Token ' ' 60 leg.2) (place : (k + 2 : ℕ) ≤ p.hops) : (p.ridden k leg).Loadable := by
  have small := h.hops.2
  exact ⟨h.sized.ridden k leg, h.found, h.hops, ⟨by simp only [PAYLOAD.ridden]; omega,
    by simp only [PAYLOAD.ridden]; omega⟩, h.stations, h.address, mem_set_token h.routes hr,
    mem_set_token h.time ht, h.destination, h.source, h.start_time⟩

theorem Station.Sends.sized {q : PAYLOAD} (sends : st.Sends p q) (h : p.Sized) : q.Sized := by
  cases sends with
  | flooded fresh elsewhere unreached => exact h.visited _ _ _
  | turned fresh here => exact h.turned st
  | departed back here place onward now => exact (h.departed _).ridden _ _
  | rode riding elsewhere place onward now => exact h.ridden _ _
  | passed phase place => exact ⟨h.stations, h.address, h.routes, h.time⟩
  | arrived riding here place => exact ⟨h.stations, h.address, h.routes, h.time⟩

/-- What a station sends can be sent on, if its own texts keep to the limits. -/
theorem Station.Sends.loadable {q : PAYLOAD} (sends : st.Sends p q) (h : p.Loadable)
    (name : Token ' ' 60 st.station_name) (recorded : Token ' ' 54 st.recorded)
    (entries : ∀ e ∈ st.copied, e.Carried) (small : q.hops < MAXDATASIZE) : q.Loadable := by
  have blank₅ : Token ' ' 5 blank := by decide
  have first := entries _ List.mem_cons_self
  have low := h.hops.1
  cases sends with
  | flooded fresh elsewhere unreached =>
      exact h.visited name recorded (blank₅.mono (by decide)) blank₅ small
  | turned fresh here =>
      have grown := h.visited name recorded first.route_name first.arrival_time small
      exact grown.moved (by decide) ⟨low, Int.le_add_one (Int.le_refl _)⟩
  | departed back here place onward now =>
      have inside := (List.getElem?_eq_some_iff.mp onward).1
      have count := h.sized.stations
      have leg := Station.leg_tokens entries
      refine (h.departed (Station.departure_token entries _ _)).ridden (leg _ _).1 (leg _ _).2 ?_
      simp only [PAYLOAD.departed]
      omega
  | rode riding elsewhere place onward now =>
      have inside := (List.getElem?_eq_some_iff.mp onward).1
      have count := h.sized.stations
      have leg := Station.leg_tokens entries
      exact h.ridden (leg _ _).1 (leg _ _).2 (by omega)
  | passed phase place =>
      have range : 0 ≤ p.found ∧ p.found ≤ 4 := by omega
      exact h.moved range (by omega)
  | arrived riding here place => exact h.moved (by decide) (by omega)

end Loadable

/-! ### The init payload -/

namespace Network
variable {V : Type*} {N : Network V}

/-- The payload that a station reads out of its own init payload. -/
def fresh (N : Network V) (q : Query V) : PAYLOAD where
  found := 0
  hops := 0
  current := 0
  stations := []
  address := []
  routes := []
  time := []
  destination := q.destination
  source := N.name q.source
  start_time := q.start_time

theorem init_text (N : Network V) (q : Query V) : (N.init q).text = (N.fresh q).text := by
  rw [init, initText_eq, zero_text rfl rfl rfl, body_eq]
  rfl

theorem Worded.fresh_loadable (worded : N.Worded) {q : Query V} (destination : Token ' ' 60 q.destination)
    (start_time : Token ';' 5 q.start_time) : (N.fresh q).Loadable :=
  have zero : (0 : ℤ) ≤ 0 ∧ (0 : ℤ) ≤ INT_MAX := by decide
  { sized := ⟨rfl, rfl, rfl, rfl⟩
    found := zero
    hops := zero
    current := zero
    stations := fun _ member => absurd member List.not_mem_nil
    address := fun _ member => absurd member List.not_mem_nil
    routes := fun _ member => absurd member List.not_mem_nil
    time := fun _ member => absurd member List.not_mem_nil
    destination
    source := worded.name q.source
    start_time }

end Network

end TransitNet
