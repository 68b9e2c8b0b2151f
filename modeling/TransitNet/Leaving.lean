import TransitNet.Riding

/-! Leaving later. Two travellers take the same path. Where nothing overtakes, the one who leaves
first arrives first, or they arrive together, or neither arrives. -/
namespace TransitNet
open Journey

namespace Station

/-- `found == 2` at one station of a path after the other: the last time that is written. -/
def ridePath : Text → List Station → Except Fault Text
  | starting_time, st :: next :: path => do
      let (arrival, _) ← arrivalAt st (st.search starting_time next.station_name)
      ridePath arrival (next :: path)
  | starting_time, _ => .ok starting_time

/-- The same from `found: 1 => 2` at the source on, which looks up the departure first. -/
def forwardPass (start_time : Text) : List Station → Except Fault Text
  | st :: next :: path => do
      let (departure, _) ← departureAt st (st.search start_time next.station_name)
      ridePath departure (st :: next :: path)
  | _ => .error .index

/-- The entries that are looked at hold times of day. -/
def TimesOfDay (st : Station) : Prop := ∀ e ∈ st.entries, HHMM e.departure_time ∧ HHMM e.arrival_time

/-- Towards each station, what departs later arrives no earlier. -/
def NonOvertaking (st : Station) : Prop :=
  ∀ e ∈ st.entries, ∀ e' ∈ st.entries, e.arrival_station = e'.arrival_station →
    timeToMinutes st.unset e.departure_time < timeToMinutes st.unset e'.departure_time →
    timeToMinutes st.unset e.arrival_time ≤ timeToMinutes st.unset e'.arrival_time

end Station

/-- A time of day, or the time at which nobody arrives. -/
def Told (t : Text) : Prop := HHMM t ∨ t = unreachable_time

theorem Told.minutes {t : Text} (h : Told t) (unset unset' : Text → ℤ) :
    timeToMinutes unset t = timeToMinutes unset' t ∧ timeToMinutes unset t ≤ 6039 := by
  rcases h with told | rfl
  · obtain ⟨hours, minutes, early, short, rfl⟩ := id told
    have day := told.minutes unset
    rw [timeToMinutes_clock unset' (by omega) (by omega)]
    rw [timeToMinutes_clock unset (by omega) (by omega)] at day ⊢
    exact ⟨rfl, by omega⟩
  · rw [timeToMinutes_unreachable, timeToMinutes_unreachable]
    exact ⟨rfl, Int.le_refl _⟩

/-- The first of two travellers is not behind. -/
structure Ahead (t t' : Text) : Prop where
  first : Told t
  second : Told t'
  earlier : ∀ unset, timeToMinutes unset t ≤ timeToMinutes unset t'

theorem Ahead.of_le {t t' : Text} (first : Told t) (second : Told t') (unset : Text → ℤ)
    (earlier : timeToMinutes unset t ≤ timeToMinutes unset t') : Ahead t t' := by
  refine ⟨first, second, fun unset' => ?_⟩
  rwa [(first.minutes unset' unset).1, (second.minutes unset' unset).1]

/-- Everybody is ahead of those who never arrive. -/
theorem Ahead.unreachable {t : Text} (first : Told t) : Ahead t unreachable_time := by
  refine ⟨first, .inr rfl, fun unset => ?_⟩
  rw [timeToMinutes_unreachable]
  exact (first.minutes unset unset).2

namespace Station
variable {st : Station} {t t' station_to_go : Text}

/-- Whatever the second traveller boards, the first has boarded it too, or something before. -/
theorem boarding_ahead (ahead : Ahead t t') {e' : TIMETABLE} (boards' : st.boarding t' station_to_go = some e') :
    ∃ e, st.boarding t station_to_go = some e ∧
      (e = e' ∨ timeToMinutes st.unset e.departure_time < timeToMinutes st.unset e'.departure_time) := by
  obtain ⟨member, station, intime⟩ := boarding_spec boards'
  have earlier := ahead.earlier st.unset
  cases boards : st.boarding t station_to_go with
  | none =>
      have missed := List.find?_eq_none.mp boards e' member
      exact absurd (boards_iff.mpr ⟨Int.le_trans earlier intime, station.symm⟩) missed
  | some e =>
      refine ⟨e, rfl, ?_⟩
      by_cases waits : timeToMinutes st.unset t' ≤ timeToMinutes st.unset e.departure_time
      · left
        rw [boarding_later boards earlier waits, Option.some.injEq] at boards'
        exact boards'
      · right
        omega

theorem TimesOfDay.departure (clocked : st.TimesOfDay) (t station_to_go : Text) :
    Told (st.departure t station_to_go) := by
  unfold Station.departure
  cases boards : st.boarding t station_to_go with
  | none => exact .inr rfl
  | some e => exact .inl (clocked e (boarding_spec boards).1).1

theorem TimesOfDay.leg (clocked : st.TimesOfDay) (t station_to_go : Text) : Told (st.leg t station_to_go).1 := by
  unfold Station.leg
  cases boards : st.boarding t station_to_go with
  | none => exact .inr rfl
  | some e => exact .inl (clocked e (boarding_spec boards).1).2

theorem departure_ahead (clocked : st.TimesOfDay) (ahead : Ahead t t') (station_to_go : Text) :
    Ahead (st.departure t station_to_go) (st.departure t' station_to_go) := by
  have first := clocked.departure t station_to_go
  have second := clocked.departure t' station_to_go
  cases boards' : st.boarding t' station_to_go with
  | none =>
      have none : st.departure t' station_to_go = unreachable_time := by rw [Station.departure, boards']
      exact none ▸ .unreachable first
  | some e' =>
      obtain ⟨e, boards, order⟩ := boarding_ahead ahead boards'
      refine .of_le first second st.unset ?_
      unfold Station.departure
      rw [boards, boards']
      rcases order with rfl | less
      · exact Int.le_refl _
      · exact Int.le_of_lt less

/-- One leg. -/
theorem leg_ahead (clocked : st.TimesOfDay) (ordered : st.NonOvertaking) (ahead : Ahead t t') :
    Ahead (st.leg t station_to_go).1 (st.leg t' station_to_go).1 := by
  have first := clocked.leg t station_to_go
  have second := clocked.leg t' station_to_go
  cases boards' : st.boarding t' station_to_go with
  | none =>
      have none : (st.leg t' station_to_go).1 = unreachable_time := by rw [Station.leg, boards']
      exact none ▸ .unreachable first
  | some e' =>
      obtain ⟨e, boards, order⟩ := boarding_ahead ahead boards'
      refine .of_le first second st.unset ?_
      unfold Station.leg
      rw [boards, boards']
      rcases order with rfl | less
      · exact Int.le_refl _
      · obtain ⟨member, station, -⟩ := boarding_spec boards
        obtain ⟨member', station', -⟩ := boarding_spec boards'
        exact ordered e member e' member' (station.trans station'.symm) less

/-! ### The whole path -/

/-- The leg from one station to another. -/
def legTo (x y : Station) (t : Text) : Text × Text := x.leg t y.station_name

theorem ridePath_eq (t : Text) (path : List Station) : ridePath t path = .ok (arrival legTo t path) := by
  induction path generalizing t with
  | nil => rfl
  | cons x path ih =>
      cases path with
      | nil => rfl
      | cons y rest =>
          rw [ridePath, arrivalAt_search]
          exact ih (x.leg t y.station_name).1

theorem forwardPass_eq (t : Text) (x y : Station) (path : List Station) :
    forwardPass t (x :: y :: path) = .ok (arrival legTo (x.departure t y.station_name) (x :: y :: path)) := by
  rw [forwardPass, departureAt_search]
  exact ridePath_eq _ _

/-- Leaving later never gets anybody there sooner. -/
theorem leaving_later_is_no_faster {path : List Station} (long : 2 ≤ path.length)
    (clocked : ∀ st ∈ path, st.TimesOfDay) (ordered : ∀ st ∈ path, st.NonOvertaking) {t t' : Text}
    (first : HHMM t) (second : HHMM t') (earlier : ∀ unset, timeToMinutes unset t ≤ timeToMinutes unset t') :
    ∃ a a', forwardPass t path = .ok a ∧ forwardPass t' path = .ok a' ∧ Told a ∧ Told a' ∧
      ∀ unset, timeToMinutes unset a ≤ timeToMinutes unset a' := by
  cases path with
  | nil => exact absurd long (by decide)
  | cons x path =>
      cases path with
      | nil => exact absurd long (Nat.lt_irrefl 1)
      | cons y rest =>
          have departs := departure_ahead (clocked x List.mem_cons_self)
            ⟨.inl first, .inl second, earlier⟩ y.station_name
          have arrives : Ahead (arrival legTo (x.departure t y.station_name) (x :: y :: rest))
              (arrival legTo (x.departure t' y.station_name) (x :: y :: rest)) := by
            apply arrival_related _ departs
            intro z member _ _ _ ahead
            exact leg_ahead (clocked z member) (ordered z member) ahead
          exact ⟨_, _, forwardPass_eq t x y rest, forwardPass_eq t' x y rest, arrives.first, arrives.second,
            arrives.earlier⟩

/-- Two buses from StationA to StationB, and one that the search never looks at. -/
def halfHourly : List Station :=
  [stationOf "StationA" "4002" [bus "09:00" "bus9" "09:20" "StationB", bus "10:00" "bus9" "10:20" "StationB",
    bus "23:00" "bus9" "23:20" "StationB"] [], stationOf "StationB" "4004" [] []]

/-- From eight o'clock, or from half past nine. -/
theorem half_past_nine_is_no_faster : ∃ a a', forwardPass "08:00".toList halfHourly = .ok a ∧
    forwardPass "09:30".toList halfHourly = .ok a' ∧ Told a ∧ Told a' ∧
    ∀ unset, timeToMinutes unset a ≤ timeToMinutes unset a' := by
  have clocked : ∀ st ∈ halfHourly, ∀ e ∈ st.entries, HHMM e.departure_time ∧ HHMM e.arrival_time := by decide
  refine leaving_later_is_no_faster (by decide) clocked (by unfold NonOvertaking; decide) (by decide) (by decide) ?_
  intro unset
  rw [show "08:00".toList = clock 8 0 by decide, show "09:30".toList = clock 9 30 by decide,
    timeToMinutes_clock unset (by decide) (by decide), timeToMinutes_clock unset (by decide) (by decide)]
  decide

end Station

/-- What the pass computes is the last time of the payload that has ridden the path. -/
theorem Network.rideTimes_getLast {V : Type*} (N : Network V) (q : Query V) (x y : V) (path : List V) :
    ∃ a, (N.rideTimes q (x :: y :: path)).getLast? = some a ∧
      Station.forwardPass q.start_time ((x :: y :: path).map N.station) = .ok a := by
  refine ⟨_, times_getLast _ _, ?_⟩
  have same : ∀ (t : Text) (path : List V), arrival Station.legTo t (path.map N.station) = arrival N.leg t path := by
    intro t path
    induction path generalizing t with
    | nil => rfl
    | cons x path ih =>
        cases path with
        | nil => rfl
        | cons y rest => exact ih _
  rw [List.map_cons, List.map_cons, Station.forwardPass_eq, ← List.map_cons, ← List.map_cons, same]
  rfl

end TransitNet
