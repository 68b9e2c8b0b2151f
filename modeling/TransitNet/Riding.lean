import TransitNet.Routing

/-! What a finished payload says of the journey. The timetables hold times of day, so
the time `99:99` of a leg that cannot be ridden is later than every departure. -/
namespace TransitNet
open Soup Relay Journey Words

variable {V : Type*} {N : Network V} {q : Query V}

/-- The entry whose index `search_timetable` returns. -/
def Station.Finds (st : Station) (starting_time station_to_go : Text) (e : TIMETABLE) : Prop :=
  ∃ i : ℕ, st.search starting_time station_to_go = i ∧ st.entry i = .ok e

namespace Network

/-- The entries of every timetable hold times of day. -/
def Clocked (N : Network V) : Prop :=
  ∀ x, ∀ e ∈ (N.station x).entries, HHMM e.departure_time ∧ HHMM e.arrival_time

/-- From the `i`-th slot on the payload says that there is no way. -/
def LostFrom (path : List V) (p : PAYLOAD) (i : ℕ) : Prop :=
  ∀ j, i ≤ j → j < path.length →
    p.time[j]? = some unreachable_time ∧ p.routes[j]? = some unreachable_route

/-- The times and routes of the payload are the journey that the timetables give. -/
structure Ridden (N : Network V) (q : Query V) (path : List V) (p : PAYLOAD) : Prop where
  first : ∀ x y, path[0]? = some x → path[1]? = some y →
    (∃ e, (N.station x).Finds q.start_time (N.name y) e ∧ p.time[0]? = some e.departure_time ∧
      p.time[1]? = some e.arrival_time ∧ p.routes[1]? = some e.route_name) ∨
    ((N.station x).search q.start_time (N.name y) = -1 ∧ p.time[0]? = some unreachable_time ∧
      LostFrom path p 1)
  later : ∀ i x y t, 1 ≤ i → path[i]? = some x → path[i + 1]? = some y → p.time[i]? = some t →
    (∃ e, (N.station x).Finds t (N.name y) e ∧ p.time[i + 1]? = some e.arrival_time ∧
      p.routes[i + 1]? = some e.route_name) ∨
    ((N.station x).search t (N.name y) = -1 ∧ LostFrom path p (i + 1))

end Network

theorem timeToMinutes_unreachable (unset : Text → ℤ) : timeToMinutes unset unreachable_time = 6039 := by
  have scanned : scanTime unreachable_time = some (99, 99) := by decide
  rw [timeToMinutes, scanned]
  rfl

theorem HHMM.minutes {s : Text} (h : HHMM s) (unset : Text → ℤ) : timeToMinutes unset s < 1440 := by
  obtain ⟨hours, minutes, early, short, rfl⟩ := h
  rw [timeToMinutes_clock unset (by omega) (by omega)]
  omega

theorem HHMM.ne_blank {s : Text} (h : HHMM s) : s ≠ blank := by
  obtain ⟨hours, minutes, _, _, rfl⟩ := h
  intro same
  have five : (clock hours minutes).length = 5 := rfl
  rw [same] at five
  exact absurd five (by decide)

theorem Station.finds_or_not (st : Station) (starting_time station_to_go : Text) :
    (st.search starting_time station_to_go = -1 ∧ st.boarding starting_time station_to_go = none) ∨
      ∃ e, st.Finds starting_time station_to_go e ∧ st.boarding starting_time station_to_go = some e := by
  rcases st.search_cases starting_time station_to_go with miss | ⟨i, e, hit, boards, entry, _⟩
  · exact .inl miss
  · exact .inr ⟨e, ⟨i, hit, entry⟩, boards⟩

theorem Station.Finds.mem {st : Station} {starting_time station_to_go : Text} {e : TIMETABLE}
    (finds : st.Finds starting_time station_to_go e) : e ∈ st.entries := by
  obtain ⟨i, hit, entry⟩ := finds
  rcases st.search_cases starting_time station_to_go with ⟨miss, _⟩ | ⟨j, e', hit', boards, entry', _⟩
  · omega
  · rw [show (j : ℤ) = i from hit'.symm.trans hit, entry, Except.ok.injEq] at entry'
    exact entry' ▸ (Station.boarding_spec boards).1

namespace Network

theorem Clocked.no_boarding (clocked : N.Clocked) (x : V) (station_to_go : Text) :
    (N.station x).boarding unreachable_time station_to_go = none := by
  cases boards : (N.station x).boarding unreachable_time station_to_go with
  | none => rfl
  | some e =>
      obtain ⟨member, _, later⟩ := Station.boarding_spec boards
      have early := (clocked x e member).1.minutes (N.station x).unset
      rw [timeToMinutes_unreachable] at later
      omega

/-- Once a time is `99:99`, all that follow are. -/
theorem Clocked.lost (clocked : N.Clocked) {path : List V} {i : ℕ}
    (lost : (N.rideTimes q path)[i]? = some unreachable_time) {j : ℕ} (later : i < j)
    (bound : j < path.length) :
    (N.rideTimes q path)[j]? = some unreachable_time ∧
      (N.rideRoutes q path)[j]? = some unreachable_route := by
  induction j with
  | zero => omega
  | succ j ih =>
      have before : (N.rideTimes q path)[j]? = some unreachable_time := by
        rcases Nat.lt_or_ge i j with earlier | here
        · exact (ih earlier (by omega)).1
        · rwa [show j = i by omega]
      have next := ride_next (List.getElem?_eq_getElem (show j < path.length by omega))
        (List.getElem?_eq_getElem bound) before
      rwa [Station.leg, clocked.no_boarding] at next

theorem Clocked.ridden (clocked : N.Clocked) {path : List V} {p : PAYLOAD}
    (time : p.time = N.rideTimes q path) (routes : p.routes = N.rideRoutes q path) :
    N.Ridden q path p := by
  constructor
  · intro x y start onward
    have now : (N.rideTimes q path)[0]? = some ((N.station x).departure q.start_time (N.name y)) := by
      rw [rideTimes_zero, departure_eq start onward]
    rcases (N.station x).finds_or_not q.start_time (N.name y) with
      ⟨miss, none⟩ | ⟨e, finds, boards⟩
    · right
      rw [Station.departure, none] at now
      refine ⟨miss, by rw [time, now], fun j late bound => ?_⟩
      rw [time, routes]
      exact clocked.lost now late bound
    · left
      rw [Station.departure, boards] at now
      have next := ride_next start onward now
      rw [Station.leg, Station.boarding_again boards] at next
      exact ⟨e, finds, by rw [time, now], by rw [time, next.1], by rw [routes, next.2]⟩
  · intro i x y t late start onward now
    rw [time] at now
    have next := ride_next start onward now
    rcases (N.station x).finds_or_not t (N.name y) with
      ⟨miss, none⟩ | ⟨e, finds, boards⟩
    · right
      rw [Station.leg, none] at next
      refine ⟨miss, fun j later bound => ?_⟩
      rw [time, routes]
      rcases Nat.eq_or_lt_of_le later with rfl | behind
      · exact next
      · exact clocked.lost next.1 behind bound
    · left
      rw [Station.leg, boards] at next
      exact ⟨e, finds, by rw [time, next.1], by rw [routes, next.2]⟩

theorem Clocked.rideTimes (clocked : N.Clocked) {path : List V} :
    ∀ t ∈ N.rideTimes q path, t ≠ blank := by
  have none : unreachable_time ≠ blank := by decide
  have departs : N.departure q path ≠ blank := by
    cases path with
    | nil => exact none
    | cons x path =>
        cases path with
        | nil => exact none
        | cons y rest =>
            rw [Network.departure, Station.departure]
            cases boards : (N.station x).boarding q.start_time (N.name y) with
            | none => exact none
            | some e => exact (clocked x e (Station.boarding_spec boards).1).1.ne_blank
  intro t member
  rcases List.mem_cons.mp member with rfl | later
  · exact departs
  · obtain ⟨r, ride, rfl⟩ := List.mem_map.mp later
    obtain ⟨x, y, s, rfl⟩ := mem_ridden ride
    rw [Network.leg, Station.leg]
    cases boards : (N.station x).boarding s (N.name y) with
    | none => exact none
    | some e => exact (clocked x e (Station.boarding_spec boards).1).2.ne_blank

end Network
end TransitNet
