import TransitNet.Mirror
import TransitNet.Room
import TransitNet.Routing
import TransitNet.Indices

/-! Networks in which no payload can outgrow the receive buffer, because there are few stations or
their texts are short. They need no condition on the deliveries, and always come to rest. -/
namespace TransitNet
open Soup Relay Journey Words

variable {V : Type*} {N : Network V} {q : Query V}

namespace Network

/-- The routes that a payload can hold. -/
def Routes (N : Network V) (r : Text) : Prop :=
  r = unreachable_route ∨ r = blank ∨ ∃ x, ∃ e ∈ (N.station x).copied, r = e.route_name

/-- The times that a payload can hold. -/
def Times (N : Network V) (t : Text) : Prop :=
  t = unreachable_time ∨ t = blank ∨
    ∃ x, ∃ e ∈ (N.station x).copied, t = e.departure_time ∨ t = e.arrival_time

theorem leg_holds (N : Network V) (x : V) (t next : Text) :
    N.Times ((N.station x).leg t next).1 ∧ N.Routes ((N.station x).leg t next).2 := by
  rw [Station.leg]
  cases boards : (N.station x).boarding t next with
  | none => exact ⟨.inl rfl, .inl rfl⟩
  | some e =>
      have copied := List.mem_cons_of_mem (N.station x).firstSlot (Station.boarding_spec boards).1
      exact ⟨.inr (.inr ⟨x, e, copied, .inr rfl⟩), .inr (.inr ⟨x, e, copied, rfl⟩)⟩

theorem departure_holds (N : Network V) (q : Query V) (path : List V) : N.Times (N.departure q path) := by
  unfold departure
  split
  · rename_i x y _
    rw [Station.departure]
    cases boards : (N.station x).boarding q.start_time (N.name y) with
    | none => exact .inl rfl
    | some e =>
        have copied := List.mem_cons_of_mem (N.station x).firstSlot (Station.boarding_spec boards).1
        exact .inr (.inr ⟨x, e, copied, .inl rfl⟩)
  · exact .inl rfl

theorem rideTimes_hold (N : Network V) (q : Query V) (path : List V) : ∀ t ∈ N.rideTimes q path, N.Times t := by
  intro t member
  rcases List.mem_cons.mp member with rfl | later
  · exact N.departure_holds q path
  · obtain ⟨r, ride, rfl⟩ := List.mem_map.mp later
    obtain ⟨x, y, s, rfl⟩ := mem_ridden ride
    exact (N.leg_holds x s (N.name y)).1

theorem rideRoutes_hold (N : Network V) (q : Query V) (path : List V) : ∀ r ∈ N.rideRoutes q path, N.Routes r := by
  intro r member
  rcases List.mem_cons.mp member with rfl | later
  · exact .inr (.inl rfl)
  · obtain ⟨r, ride, rfl⟩ := List.mem_map.mp later
    obtain ⟨x, y, s, rfl⟩ := mem_ridden ride
    exact (N.leg_holds x s (N.name y)).2

theorem turnTimes_hold (N : Network V) (path : List V) : ∀ t ∈ N.turnTimes path, N.Times t := by
  intro t member
  rcases List.mem_append.mp member with pad | last
  · exact .inr (.inl (List.eq_of_mem_replicate pad))
  · obtain ⟨d, _, rfl⟩ := List.mem_map.mp last
    exact .inr (.inr ⟨d, _, List.mem_cons_self, .inr rfl⟩)

theorem turnRoutes_hold (N : Network V) (path : List V) : ∀ r ∈ N.turnRoutes path, N.Routes r := by
  intro r member
  rcases List.mem_append.mp member with pad | last
  · exact .inr (.inl (List.eq_of_mem_replicate pad))
  · obtain ⟨d, _, rfl⟩ := List.mem_map.mp last
    exact .inr (.inr ⟨d, _, List.mem_cons_self, rfl⟩)

/-- Every time and every route in a payload comes from a timetable, or is one of the three texts
that stand for none. -/
theorem payload_holds (N : Network V) (q : Query V) (ph : Phase V) :
    (∀ t ∈ (N.payload q ph).time, N.Times t) ∧ ∀ r ∈ (N.payload q ph).routes, N.Routes r := by
  cases ph with
  | flood path here =>
      exact ⟨fun t member => .inr (.inl (List.eq_of_mem_replicate member)),
        fun r member => .inr (.inl (List.eq_of_mem_replicate member))⟩
  | back path k => exact ⟨N.turnTimes_hold path, N.turnRoutes_hold path⟩
  | ride path k =>
      exact ⟨fun t member => (mem_filling member).elim (N.rideTimes_hold q path t) (N.turnTimes_hold path t),
        fun r member => (mem_filling member).elim (N.rideRoutes_hold q path r) (N.turnRoutes_hold path r)⟩
  | home path k => exact ⟨N.rideTimes_hold q path, N.rideRoutes_hold q path⟩

theorem payload_lists (N : Network V) (q : Query V) (ph : Phase V) : ∃ path : List V,
    (N.payload q ph).stations = path.map N.name ∧ (N.payload q ph).address = path.map N.recorded ∧
      (N.payload q ph).hops = path.length ∧
      ∀ {nbrs goal source}, ph.Valid nbrs goal source → path.Nodup := by
  cases ph with
  | flood path here => exact ⟨path, rfl, rfl, rfl, fun valid => (List.nodup_append.mp valid.simple).1⟩
  | back path k => exact ⟨path, rfl, rfl, rfl, fun valid => valid.1.nodup⟩
  | ride path k => exact ⟨path, rfl, rfl, rfl, fun valid => valid.1.nodup⟩
  | home path k => exact ⟨path, rfl, rfl, rfl, fun valid => valid.1.nodup⟩

theorem payload_counters (N : Network V) (q : Query V) {ph : Phase V} {nbrs : V → List V} {goal : V → Bool}
    {source : V} (valid : ph.Valid nbrs goal source) : 0 ≤ (N.payload q ph).found ∧ (N.payload q ph).found ≤ 3 ∧
      0 ≤ (N.payload q ph).current ∧ (N.payload q ph).current ≤ (N.payload q ph).hops := by
  have within : ∀ {f : ℤ} {k n : ℕ}, 0 ≤ f → f ≤ 3 → k ≤ n → 0 ≤ f ∧ f ≤ 3 ∧ 0 ≤ (k : ℤ) ∧ (k : ℤ) ≤ n := by
    intro f k n low high inside
    exact ⟨low, high, Int.natCast_nonneg k, Int.ofNat_le.mpr inside⟩
  cases ph with
  | flood path here => exact within (f := 0) (by decide) (by decide) (Nat.le_refl path.length)
  | back path k =>
      have bounds := valid.2
      exact within (f := 1) (by decide) (by decide) (by omega)
  | ride path k =>
      have bounds := valid.2
      exact within (f := 2) (by decide) (by decide) (by omega)
  | home path k =>
      have bounds := valid.2
      exact within (f := 3) (by decide) (by decide) (by omega)

/-- Limits that the texts of a network keep to. -/
structure Compact (N : Network V) (name address route : ℕ) : Prop where
  names : ∀ x, (N.name x).length ≤ name
  addresses : ∀ x, (N.recorded x).length ≤ address
  routes : ∀ x, ∀ e ∈ (N.station x).copied, e.route_name.length ≤ route
  unreachable : unreachable_route.length ≤ route

end Network

theorem letters_le {xs : List Text} {n : ℕ} (short : ∀ s ∈ xs, s.length ≤ n) : letters xs ≤ xs.length * n := by
  induction xs with
  | nil => exact Nat.zero_le _
  | cons x xs ih =>
      have first := short x List.mem_cons_self
      have rest := ih fun s member => short s (List.mem_cons_of_mem x member)
      rw [letters_cons, List.length_cons, Nat.succ_mul]
      omega

theorem figures_phase {i : ℤ} (low : 0 ≤ i) (high : i ≤ 3) : figures i = 1 := by
  rcases (by omega : i = 0 ∨ i = 1 ∨ i = 2 ∨ i = 3) with rfl | rfl | rfl | rfl <;> decide

namespace Network
variable {name address route : ℕ}

/-- What a payload can come to, with every station of the network on its path. -/
theorem Compact.length_payload [Fintype V] (compact : N.Compact name address route) (carried : N.Carried)
    (asked : N.Asked q) {ph : Phase V} {nbrs : V → List V} {goal : V → Bool} {source : V}
    (valid : ph.Valid nbrs goal source) : (N.payload q ph).text.length ≤
      Fintype.card V * (name + address + route + 9) + 2 * figures (Fintype.card V) + name + 72 := by
  obtain ⟨path, stations, addresses, hops, simple⟩ := N.payload_lists q ph
  obtain ⟨low, high, nonneg, inside⟩ := N.payload_counters q valid
  have sized := sized_payload (N := N) (q := q) valid
  have few := (simple valid).length_le_card
  obtain ⟨times, routes⟩ := N.payload_holds q ph
  have h₁ : letters (N.payload q ph).stations ≤ (N.payload q ph).stations.length * name := by
    refine letters_le fun s member => ?_
    rw [stations] at member
    obtain ⟨x, _, rfl⟩ := List.mem_map.mp member
    exact compact.names x
  have h₂ : letters (N.payload q ph).address ≤ (N.payload q ph).address.length * address := by
    refine letters_le fun s member => ?_
    rw [addresses] at member
    obtain ⟨x, _, rfl⟩ := List.mem_map.mp member
    exact compact.addresses x
  have h₃ : letters (N.payload q ph).routes ≤ (N.payload q ph).routes.length * route := by
    have pad : blank.length ≤ unreachable_route.length := by decide
    refine letters_le fun r member => ?_
    rcases routes r member with rfl | rfl | ⟨x, e, copied, rfl⟩
    · exact compact.unreachable
    · exact pad.trans compact.unreachable
    · exact compact.routes x e copied
  have h₄ : letters (N.payload q ph).time ≤ (N.payload q ph).time.length * 5 := by
    refine letters_le fun t member => ?_
    rcases times t member with rfl | rfl | ⟨x, e, copied, rfl | rfl⟩
    · decide
    · decide
    · exact (carried.entries x e copied).departure_time.short
    · exact (carried.entries x e copied).arrival_time.short
  have ends : (N.payload q ph).destination = q.destination ∧ (N.payload q ph).source = N.name q.source ∧
      (N.payload q ph).start_time = q.start_time := by
    cases ph <;> exact ⟨rfl, rfl, rfl⟩
  have f₁ := figures_phase low high
  have f₂ : figures (N.payload q ph).hops ≤ figures (Fintype.card V) := by
    rw [hops]
    exact figures_mono (Int.natCast_nonneg _) (Int.ofNat_le.mpr few)
  have f₃ := figures_mono nonneg inside
  have d := asked.destination.short
  have s := compact.names q.source
  have t := asked.start_time.short
  have area : path.length * (name + address + route + 9) ≤ Fintype.card V * (name + address + route + 9) :=
    Nat.mul_le_mul_right _ few
  obtain ⟨n₁, n₂, n₃, n₄⟩ := sized
  rw [hops] at n₁ n₂ n₃ n₄
  rw [Int.ofNat_inj] at n₁ n₂ n₃ n₄
  rw [n₁] at h₁
  rw [n₂] at h₂
  rw [n₃] at h₃
  rw [n₄] at h₄
  have split : path.length * (name + address + route + 9) = path.length * name + path.length * address +
      path.length * route + path.length * 5 + path.length * 4 := by ring
  rw [PAYLOAD.length_text, PAYLOAD.digits_eq, n₁, n₂, n₃, n₄, ends.1, ends.2.1, ends.2.2]
  omega

/-- Room for the longest payload there can be. -/
def Spacious [Fintype V] (N : Network V) (name address route : ℕ) : Prop :=
  N.Compact name address route ∧
    Fintype.card V * (name + address + route + 9) + 2 * figures (Fintype.card V) + name + 72 < MAXDATASIZE

section Finite
variable [Fintype V]

theorem Spacious.short (spacious : N.Spacious name address route) (carried : N.Carried) (asked : N.Asked q)
    {ph : Phase V} {nbrs : V → List V} {goal : V → Bool} {source : V} (valid : ph.Valid nbrs goal source) :
    (N.payload q ph).text.length < MAXDATASIZE :=
  (spacious.1.length_payload carried asked valid).trans_lt spacious.2

omit [Fintype V] in
/-- Where all payloads fit the network does everything that the search does. -/
theorem Regular.mirrors [DecidableEq V] (regular : N.Regular)
    (fits : ∀ m : Query V × Phase V, N.Sends m → (N.payload m.1 m.2).text.length < MAXDATASIZE) :
    Mirrors N.Sends N.datagram N.finished N.task.reaction N.react := by
  rintro m ⟨asked, valid⟩
  rw [regular.react_datagram asked valid, if_pos (fits m ⟨asked, valid⟩)]

theorem Spacious.fits (spacious : N.Spacious name address route) (carried : N.Carried) (m : Query V × Phase V)
    (sends : N.Sends m) : (N.payload m.1 m.2).text.length < MAXDATASIZE :=
  spacious.short carried sends.1 sends.2

/-- A search without loss can always be brought to rest. -/
theorem search_rests (wired : N.Wired) [DecidableEq V] {qs : List (Query V)}
    {t : Pool (Query V × Phase V) (Query V × List V)} (good : t.Good (N.Afoot qs) (N.Answered qs)) :
    ∃ u, Runs N.task.reaction t u ∧ u.flying = 0 := by
  refine comes_to_rest (fun f => f.msg.2.rank (Fintype.card V)) (wired.afoot_preserved qs) ?_
    (fun f _ => ⟨_, rfl⟩) good
  intro f out reports afoot reacts g member
  rw [Task.reaction, Option.some.injEq, Prod.mk.injEq] at reacts
  obtain ⟨rfl, rfl⟩ := reacts
  obtain ⟨m, sent, rfl⟩ := mem_spawn.mp member
  obtain ⟨ph, next, rfl⟩ := List.mem_map.mp sent
  exact afoot.2.valid.rank_next afoot.2.away next

theorem twoStops_spacious : twoStops.Spacious 8 14 8 := by
  refine ⟨⟨by decide, by decide, ?_, by decide⟩, by decide⟩
  decide

end Finite
end Network
end TransitNet
