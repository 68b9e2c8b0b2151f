import TransitNet.Forwarding
import TransitNet.Lengths
import TransitNet.Answers

/-! How far a payload grows on its way. Nothing in the program bounds a text by what the receive
buffer holds; what the stations write must leave room. -/
namespace TransitNet
open Soup Words

/-- The digits of a counter. -/
def figures (i : ℤ) : ℕ := (printInt i).length

def lengthAt (xs : List Text) (i : ℤ) : ℕ := ((xs[i.toNat]?).getD []).length

/-- What an entry of its own takes that a station adds to the path, with its four separators. -/
def Station.entered (st : Station) (route_name arrival_time : Text) : ℕ :=
  st.station_name.length + st.recorded.length + route_name.length + arrival_time.length + 4

/-- What it takes to fill in arrival and route of a leg instead of what stands there. -/
def PAYLOAD.filled (p : PAYLOAD) (leg : Text × Text) : ℤ :=
  leg.1.length + leg.2.length + figures (p.current + 1) - lengthAt p.time p.current -
    lengthAt p.routes p.current - figures p.current

/-- How many characters longer a payload leaves the station. -/
def Station.growth (st : Station) (p : PAYLOAD) : ℤ :=
  let next := (p.stations[p.current.toNat]?).getD []
  if p.found = 0 then
    if p.destination = st.station_name then
      st.entered st.firstSlot.route_name st.firstSlot.arrival_time + figures (p.hops + 1) - figures p.current
    else if st.Neighbours.any fun n => n.addr_and_port ∉ p.address then
      st.entered blank blank + 2 * figures (p.hops + 1) - figures p.hops - figures p.current
    else 0
  else if p.found = 1 ∧ p.source = st.station_name then
    let departure := st.departure p.start_time next
    let starting_time := ((p.time.set 0 departure)[(p.current - 1).toNat]?).getD []
    departure.length - lengthAt p.time 0 + p.filled (st.leg starting_time next)
  else if p.found = 2 ∧ p.destination ≠ st.station_name then
    p.filled (st.leg ((p.time[(p.current - 1).toNat]?).getD []) next)
  else 0

theorem letters_set {xs : List Text} {i : ℕ} {s : Text} (there : xs[i]? = some s) (v : Text) :
    letters (xs.set i v) + s.length = letters xs + v.length := by
  obtain ⟨inside, same⟩ := List.getElem?_eq_some_iff.mp there
  rw [List.set_eq_take_append_cons_drop, if_pos inside]
  conv_rhs => rw [← List.take_append_drop i xs, List.drop_eq_getElem_cons inside, same]
  simp only [letters_append, letters_cons]
  omega

theorem figures_mono {m n : ℤ} (low : 0 ≤ m) (le : m ≤ n) : figures m ≤ figures n := by
  obtain ⟨a, rfl⟩ := Int.eq_ofNat_of_zero_le low
  obtain ⟨b, rfl⟩ := Int.eq_ofNat_of_zero_le (low.trans le)
  rw [figures, figures, printInt_natCast, printInt_natCast, Nat.length_toDigits_le_iff (by decide)
    (List.length_pos_of_ne_nil Nat.toDigits_ne_nil)]
  have bound := (Nat.length_toDigits_le_iff (k := (Nat.toDigits 10 b).length) (n := b) (by decide)
    (List.length_pos_of_ne_nil Nat.toDigits_ne_nil)).mp (Nat.le_refl _)
  omega

theorem lengthAt_nat {xs : List Text} {i : ℕ} {s : Text} (there : xs[i]? = some s) :
    lengthAt xs i = s.length := by
  rw [lengthAt, Int.toNat_natCast, there, Option.getD_some]

section Growth
variable {st : Station} {p : PAYLOAD}

theorem PAYLOAD.digits_eq (p : PAYLOAD) : p.digits = figures p.found + figures p.hops + figures p.current := rfl

/-- Riding on from slot `k` replaces a time and a route. -/
theorem PAYLOAD.length_ridden (h : p.Sized) {k : ℕ} (place : p.current = (k + 1 : ℕ))
    (inside : k + 1 < p.stations.length) (leg : Text × Text) :
    ((p.ridden k leg).text.length : ℤ) = p.text.length + p.filled leg := by
  obtain ⟨h₁, h₂, h₃, h₄⟩ := h
  obtain ⟨t, time⟩ : ∃ t, p.time[k + 1]? = some t := ⟨_, List.getElem?_eq_getElem (by omega)⟩
  obtain ⟨r, route⟩ : ∃ r, p.routes[k + 1]? = some r := ⟨_, List.getElem?_eq_getElem (by omega)⟩
  have times := letters_set time leg.1
  have routes := letters_set route leg.2
  have next : ((k + 1 : ℕ) : ℤ) + 1 = (k + 2 : ℕ) := by omega
  simp only [PAYLOAD.length_text, PAYLOAD.digits_eq, PAYLOAD.ridden, PAYLOAD.filled, place, next,
    lengthAt_nat time, lengthAt_nat route, List.length_set]
  omega

/-- A text with an entry more is longer by that entry and the figures of the counters. -/
theorem PAYLOAD.length_visited (p : PAYLOAD) (st : Station) (route_name arrival_time : Text) :
    (p.visited st route_name arrival_time).text.length + figures p.hops + figures p.current =
      p.text.length + st.entered route_name arrival_time + 2 * figures (p.hops + 1) := by
  simp only [PAYLOAD.length_text, PAYLOAD.digits_eq, PAYLOAD.visited, Station.entered, letters_append,
    letters_cons, letters_nil, List.length_append, List.length_singleton]
  omega

theorem PAYLOAD.length_turned (fresh : p.found = 0) (st : Station) :
    (p.turned st).text.length + figures p.current = p.text.length +
      st.entered st.firstSlot.route_name st.firstSlot.arrival_time + figures (p.hops + 1) := by
  have one : figures 1 = 1 := by decide
  have zero : figures 0 = 1 := by decide
  simp only [PAYLOAD.length_text, PAYLOAD.digits_eq, PAYLOAD.turned, PAYLOAD.visited, Station.entered,
    letters_append, letters_cons, letters_nil, List.length_append, List.length_singleton, fresh, one, zero]
  omega

theorem PAYLOAD.length_departed (h : p.Sized) (back : p.found = 1) (nonempty : 0 < p.stations.length)
    (departure : Text) : ((p.departed departure).text.length : ℤ) =
      p.text.length + (departure.length - lengthAt p.time 0) := by
  obtain ⟨h₁, h₂, h₃, h₄⟩ := h
  obtain ⟨t, time⟩ : ∃ t, p.time[0]? = some t := ⟨_, List.getElem?_eq_getElem (by omega)⟩
  have times := letters_set time departure
  have there := lengthAt_nat time
  rw [Nat.cast_zero] at there
  have one : figures 1 = 1 := by decide
  have two : figures 2 = 1 := by decide
  simp only [PAYLOAD.length_text, PAYLOAD.digits_eq, PAYLOAD.departed, there, List.length_set, back, one, two]
  omega

theorem PAYLOAD.length_moved (p : PAYLOAD) (found current : ℤ) :
    { p with found, current }.text.length + figures p.found + figures p.current =
      p.text.length + figures found + figures current := by
  have same : ({ p with found, current } : PAYLOAD).text.length =
      p.text.length + figures found + figures current - figures p.found - figures p.current := by
    simp only [PAYLOAD.length_text, PAYLOAD.digits_eq]
    omega
  have whole := p.length_text
  rw [PAYLOAD.digits_eq] at whole
  omega

/-- Going back one place makes no text longer. -/
theorem PAYLOAD.length_back {p : PAYLOAD} {found : ℤ} (same : figures found = figures p.found) (place : 2 ≤ p.current) :
    { p with found, current := p.current - 1 }.text.length ≤ p.text.length := by
  have moved := p.length_moved found (p.current - 1)
  have fewer := figures_mono (m := p.current - 1) (n := p.current) (by omega) (by omega)
  omega

theorem Station.growth_back {p : PAYLOAD} (phase : p.found ≠ 0) (still : ¬ (p.found = 1 ∧ p.source = st.station_name))
    (other : ¬ (p.found = 2 ∧ p.destination ≠ st.station_name)) : st.growth p = 0 := by
  rw [Station.growth, if_neg phase, if_neg still, if_neg other]

/-- The growth is what the text grows by, but for a payload that is only passed on: its counter
may lose a digit. -/
theorem Station.Sends.length {q : PAYLOAD} (sends : st.Sends p q) (h : p.Loadable) :
    (q.text.length : ℤ) = p.text.length + st.growth p ∨ st.growth p = 0 ∧ q.text.length ≤ p.text.length := by
  cases sends with
  | flooded fresh elsewhere unreached =>
      left
      have grown := p.length_visited st blank blank
      have away : (st.Neighbours.any fun n => n.addr_and_port ∉ p.address) = true := by
        simpa using unreached
      simp only [Station.growth, if_pos fresh, if_neg elsewhere, away, if_true]
      omega
  | turned fresh here =>
      left
      have grown := PAYLOAD.length_turned fresh st
      simp only [Station.growth, if_pos fresh, if_pos here]
      omega
  | @departed back here k t next place onward now =>
      left
      have inside := (List.getElem?_eq_some_iff.mp onward).1
      have start := p.length_departed h.sized back (by omega) (st.departure p.start_time next)
      have rode := PAYLOAD.length_ridden (h.sized.departed (st.departure p.start_time next)) (k := k) place
        inside (st.leg t next)
      have same : (p.departed (st.departure p.start_time next)).filled (st.leg t next) =
          p.filled (st.leg t next) := by
        have later : lengthAt (p.time.set 0 (st.departure p.start_time next)) p.current =
            lengthAt p.time p.current := by
          rw [place, lengthAt, lengthAt, Int.toNat_natCast, List.getElem?_set_ne (by omega)]
        simp only [PAYLOAD.filled, PAYLOAD.departed, later]
      have before : ((k + 1 : ℕ) - 1 : ℤ).toNat = k := by omega
      have phase : p.found ≠ 0 := by omega
      simp only [Station.growth, if_neg phase, if_pos (And.intro back here), place, before, Int.toNat_natCast,
        onward, now, Option.getD_some]
      rw [rode, same, start]
      omega
  | @rode riding elsewhere k t next place onward now =>
      left
      have inside := (List.getElem?_eq_some_iff.mp onward).1
      have rode := PAYLOAD.length_ridden h.sized place inside (st.leg t next)
      have before : ((k + 1 : ℕ) - 1 : ℤ).toNat = k := by omega
      have phase : p.found ≠ 0 := by omega
      have other : ¬ (p.found = 1 ∧ p.source = st.station_name) := by omega
      simp only [Station.growth, if_neg phase, if_neg other, if_pos (And.intro riding elsewhere), place, before,
        Int.toNat_natCast, onward, now, Option.getD_some] at rode ⊢
      omega
  | passed phase place =>
      right
      refine ⟨Station.growth_back (by omega) ?_ ?_, PAYLOAD.length_back rfl place.1⟩
      · rintro ⟨back, here⟩
        rcases phase with ⟨_, away⟩ | home
        · exact away here
        · omega
      · rintro ⟨riding, _⟩
        omega
  | arrived riding here place =>
      right
      refine ⟨Station.growth_back (by omega) (by omega) fun away => away.2 here, PAYLOAD.length_back ?_ place.1⟩
      rw [riding]
      decide

end Growth

/-! ### Runs in which there is always room -/

namespace Network
variable {V : Type*} {N : Network V}

/-- A delivery that leaves the receive buffer of the next station room enough. -/
def roomy (N : Network V) : Reaction Datagram (V × PAYLOAD) := fun d =>
  match N.resolve d.ip d.port with
  | none => N.react d
  | some x =>
      match load_payload d.text with
      | .ok p => if (p.text.length : ℤ) + (N.station x).growth p < MAXDATASIZE then N.react d else none
      | .error _ => none

theorem roomy_react {d : Datagram} {r : List Datagram × List (V × PAYLOAD)} (reacts : N.roomy d = some r) :
    N.react d = some r := by
  rw [roomy] at reacts
  split at reacts
  · exact reacts
  · split at reacts
    · split at reacts
      · exact reacts
      · cases reacts
    · cases reacts

/-- At a station a delivery is roomy if the text and its growth fit. -/
theorem roomy_at {d : Datagram} {x : V} {p : PAYLOAD} (leads : N.resolve d.ip d.port = some x)
    (loaded : load_payload d.text = .ok p) {r : List Datagram × List (V × PAYLOAD)}
    (reacts : N.react d = some r) :
    N.roomy d = some r ↔ (p.text.length : ℤ) + (N.station x).growth p < MAXDATASIZE := by
  simp only [roomy, leads, loaded, reacts]
  constructor
  · intro same
    by_contra none
    rw [if_neg none] at same
    cases same
  · intro room
    rw [if_pos room]

/-- A datagram that can be received whole, of a payload that can be sent on. -/
def Whole (d : Datagram) : Prop := d.text.length < MAXDATASIZE ∧ ∃ p : PAYLOAD, p.Loadable ∧ d.text = p.text

/-- What is sent from a whole datagram is whole exactly if the delivery is roomy. -/
theorem Whole.sent {d : Datagram} (whole : Whole d) (worded : N.Worded)
    (entries : ∀ x, ∀ e ∈ (N.station x).copied, e.Carried) {out : List Datagram}
    {reports : List (V × PAYLOAD)} (reacts : N.react d = some (out, reports)) :
    ∀ e ∈ out, (e.text.length < MAXDATASIZE ↔ N.roomy d = some (out, reports)) ∧
      (e.text.length < MAXDATASIZE → Whole e) := by
  obtain ⟨short, p₀, loadable, text⟩ := whole
  rcases react_some reacts with ⟨rfl, _⟩ | ⟨x, p, outcome, leads, _, loaded, handled, rfl, _⟩
  · exact fun e member => absurd member List.not_mem_nil
  · intro e member
    have known := loadable.load
    rw [← text, loaded, Except.ok.injEq] at known
    subst known
    rw [text] at short
    obtain ⟨q, sends, same⟩ := handle_sends loadable.sized handled e member
    have room : e.text.length < MAXDATASIZE ↔
        (p.text.length : ℤ) + (N.station x).growth p < MAXDATASIZE := by
      rw [same]
      rcases sends.length loadable with grows | ⟨still, shrinks⟩ <;> omega
    refine ⟨room.trans (roomy_at leads loaded reacts).symm, fun fits => ⟨fits, q, ?_, same⟩⟩
    rw [same] at fits
    exact sends.loadable loadable (worded.name x) (worded.recorded x) (entries x)
      ((sends.sized loadable.sized).hops_lt fits)

/-- What a whole datagram finishes fits the answer of a query. -/
theorem Whole.filed {d : Datagram} (whole : Whole d) {out : List Datagram} {reports : List (V × PAYLOAD)}
    (reacts : N.react d = some (out, reports)) :
    ∀ r ∈ reports, ∃ answer, craft_payload r.2 = .ok answer ∧ answer.length < MAXDATASIZE := by
  obtain ⟨short, p₀, loadable, text⟩ := whole
  rcases react_some reacts with ⟨_, rfl⟩ | ⟨x, p, outcome, leads, _, loaded, handled, _, rfl⟩
  · exact fun r member => absurd member List.not_mem_nil
  · intro r member
    obtain ⟨p', done, rfl⟩ := List.mem_map.mp member
    have branch : udp_branch (N.station x) p₀.text = .ok outcome := by
      rw [text, loadable.load] at loaded
      cases loaded
      rw [loadable.udp_branch]
      exact handled
    have done : outcome.finished = some p' := Option.mem_toList.mp done
    obtain ⟨answer, crafted⟩ := finished_crafts branch done
    rw [text] at short
    exact ⟨answer, crafted, finished_fits loadable short branch done crafted⟩

theorem whole_init (worded : N.Worded) {q : Query V} (destination : Token ' ' 60 q.destination)
    (start_time : Token ';' 5 q.start_time) : Whole (N.init q) := by
  refine ⟨?_, _, worded.fresh_loadable destination start_time, init_text N q⟩
  have zero : figures 0 = 1 := by decide
  have h₁ := destination.short
  have h₂ := (worded.name q.source).short
  have h₃ := start_time.short
  rw [init_text]
  simp only [PAYLOAD.length_text, PAYLOAD.digits_eq, fresh, zero, letters_nil, List.length_nil, MAXDATASIZE]
  omega

/-- In every run whose deliveries are all roomy, whatever is lost or comes twice, every datagram is
received whole and every answer fits; and what another delivery sends is too long. -/
theorem payloads_fit (worded : N.Worded) (entries : ∀ x, ∀ e ∈ (N.station x).copied, e.Carried)
    {qs : List (Query V)} (asked : ∀ q ∈ qs, Token ' ' 60 q.destination ∧ Token ';' 5 q.start_time)
    {s : Pool Datagram (V × PAYLOAD)} (run : Reaches N.roomy (launch (qs.map N.init)) s) :
    (∀ f ∈ s.flying, f.msg.text.length < MAXDATASIZE) ∧
    (∀ r ∈ s.log, ∃ answer, craft_payload r.out.2 = .ok answer ∧ answer.length < MAXDATASIZE) ∧
    ∀ f ∈ s.flying, ∀ out reports, N.react f.msg = some (out, reports) →
      ∀ d ∈ out, (d.text.length < MAXDATASIZE ↔ N.roomy f.msg = some (out, reports)) := by
  have keeps : Preserves N.roomy (fun f => Whole f.msg)
      fun r => ∃ answer, craft_payload r.out.2 = .ok answer ∧ answer.length < MAXDATASIZE := by
    constructor
    · intro f out reports whole reacts g member
      obtain ⟨m, sent, rfl⟩ := mem_spawn.mp member
      obtain ⟨fits, whole'⟩ := whole.sent worded entries (roomy_react reacts) m sent
      exact whole' (fits.mpr reacts)
    · intro f out reports whole reacts r member
      obtain ⟨o, filed, rfl⟩ := mem_file.mp member
      exact whole.filed (roomy_react reacts) o filed
  obtain ⟨flying, filed⟩ := run.good keeps (launch_good fun _ d member => by
    obtain ⟨q, given, rfl⟩ := List.mem_map.mp member
    exact whole_init worded (asked q given).1 (asked q given).2)
  refine ⟨fun f member => (flying f member).1, filed, fun f member out reports reacts d sent => ?_⟩
  exact ((flying f member).sent worded entries reacts d sent).1

end Network

/-! ### A short way and a long one -/

/-- Between two stops there is room all the way home. -/
theorem twoStops_payloads_fit : ∃ s : Pool Datagram (Bool × PAYLOAD), s.flying = 0 ∧ s.log.length = 1 ∧
    (∀ f ∈ s.flying, f.msg.text.length < MAXDATASIZE) ∧
    (∀ r ∈ s.log, ∃ answer, craft_payload r.out.2 = .ok answer ∧ answer.length < MAXDATASIZE) ∧
    ∀ f ∈ s.flying, ∀ out reports, twoStops.react f.msg = some (out, reports) →
      ∀ d ∈ out, (d.text.length < MAXDATASIZE ↔ twoStops.roomy f.msg = some (out, reports)) := by
  have computed : (serves twoStops.roomy 5 ([⟨0, [], twoStops.init toStationB⟩], [])).map (fun line =>
      (line.1.isEmpty, line.2.length)) = some (true, 1) := by decide +kernel
  obtain ⟨⟨flying, log⟩, served, same⟩ := Option.map_eq_some_iff.mp computed
  rw [Prod.mk.injEq, List.isEmpty_iff] at same
  obtain ⟨rfl, one⟩ := same
  have run : Runs twoStops.roomy (launch ([toStationB].map twoStops.init)) (pool ([], log)) := serves_runs served
  have asked : ∀ q ∈ [toStationB], Token ' ' 60 q.destination ∧ Token ';' 5 q.start_time := by decide
  exact ⟨pool ([], log), rfl, one, Network.payloads_fit twoStops_regular.toWorded twoStops_regular.entries asked
    run.reaches⟩

/-- A stop with a name of sixty characters. -/
def stopName (i : ℕ) : Text := List.replicate 58 'S' ++ twoDigits i

def stopPort (i : ℕ) : Text := '4' :: '0' :: twoDigits i

/-- Twelve stops in a line. -/
def longLine : Network (Fin 12) where
  station i :=
    { station_name := stopName i
      local_ip := "127.0.0.1".toList
      UDP_port := stopPort i
      Timetable := [bus "09:00" "bus9" "09:20" "StationB", ⟨[], [], [], [], []⟩]
      NUM_TIMETABLES := 1
      spare := Nat.lt_succ_self _
      Neighbours := ([i.val - 1, i.val + 1].filter fun j => j ≠ i.val && j < 12).map fun j =>
        ⟨"127.0.0.1".toList, stopPort j, "127.0.0.1:".toList ++ stopPort j⟩
      unset _ := 0 }
  argv i := ([i.val - 1, i.val + 1].filter fun j => j ≠ i.val && j < 12).map fun j => "127.0.0.1:".toList ++ stopPort j
  started := by decide +kernel
  resolve _ port := (List.finRange 12).find? fun i => port = stopPort i

/-- From one end of the line to the other. -/
def endToEnd : Query (Fin 12) := ⟨stopName 11, 0, "08:00".toList⟩

/-- Before the payload has reached the last stop its text is longer than the receive buffer. -/
theorem longLine_outgrows : longLine.Worded ∧ (∀ x, ∀ e ∈ (longLine.station x).copied, e.Carried) ∧
    longLine.Asked endToEnd ∧ ∃ s, Runs longLine.react (launch [longLine.init endToEnd]) s ∧
      ∃ f ∈ s.flying, f.msg.text.length = 1060 := by
  have computed : (serves longLine.react 11 ([⟨0, [], longLine.init endToEnd⟩], [])).map (fun line =>
      line.1.map fun f => f.msg.text.length) = some [1060] := by decide +kernel
  obtain ⟨⟨flying, log⟩, served, lengths⟩ := Option.map_eq_some_iff.mp computed
  obtain ⟨f, rest, rfl, long, _⟩ := List.map_eq_cons_iff.mp lengths
  have worded : longLine.Worded := ⟨by decide +kernel, by decide +kernel⟩
  refine ⟨worded, fun x e member => ?_, ⟨by decide +kernel, by decide +kernel, by decide +kernel⟩, _,
    serves_runs served, f, Multiset.mem_coe.mpr List.mem_cons_self, long⟩
  have known : (longLine.station x).copied = [bus "09:00" "bus9" "09:20" "StationB"] := rfl
  rw [known, List.mem_singleton] at member
  subst member
  exact ⟨by decide, by decide, by decide⟩

end TransitNet
