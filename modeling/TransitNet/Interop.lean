import TransitNet.Mixed
import TransitNet.Loaders

/-! What holds in every run of a mixed network, and what happens where a payload is too long for it. -/
namespace TransitNet
open Soup Relay Journey Words Utf8

variable {V : Type*} {M : MixedNetwork V}

/-- The two networks are in the same state: what is in flight stands at the same station and says the
same to either program, and the same payloads have finished. -/
structure InStep (s : Pool PyDatagram (V × PAYLOAD)) (c : Pool Datagram (V × PAYLOAD)) : Prop where
  flying : s.flying.map (fun f => (f.origin, f.trail.length, f.msg.ip_addr, f.msg.udp_port,
      load_payload f.msg.message, deserialize f.msg.message)) =
    c.flying.map fun f => (f.origin, f.trail.length, f.msg.ip, intOf f.msg.port,
      load_payload f.msg.text, deserialize f.msg.text)
  log : s.log.map (fun r => (r.origin, r.trail.length, r.out)) =
    c.log.map fun r => (r.origin, r.trail.length, r.out)

namespace MixedNetwork
variable {qs : List (Query V)}

theorem Wired.launch_image (h : M.Wired) (qs : List (Query V)) :
    (launch (qs.map M.init) : Pool PyDatagram (V × PAYLOAD)) =
      (launch (qs.map h.network.task.opening) : Pool _ _).map h.datagram h.network.finished := by
  have opened : qs.map M.init = (qs.map h.network.task.opening).map h.datagram := by
    rw [List.map_map]
    rfl
  rw [opened, launch_map]

theorem Regular.image_in_step (h : M.Regular)
    (fits : ∀ m, h.Sends m → (h.network.payload m.1 m.2).text.length < MAXDATASIZE)
    {t : Pool (Query V × Phase V) (Query V × List V)} (sends : ∀ f ∈ t.flying, h.Sends f.msg) :
    InStep (t.map h.datagram h.network.finished) (t.map h.network.datagram h.network.finished) where
  flying := by
    simp only [Pool.map, Multiset.map_map]
    apply Multiset.map_congr rfl
    intro f member
    have sent := sends f member
    obtain ⟨x, here⟩ := Phase.Valid.at_isSome sent.2
    obtain ⟨n, same, short⟩ := h.datagram_wired sent here
    have text := fits f.msg sent
    have sized := Network.sized_payload (N := h.network) (q := f.msg.1) sent.2
    have printed := h.printed sent.1 f.msg.2
    have counters := h.network.payload_counters f.msg.1 sent.2
    have whole : h.network.datagram f.msg = ⟨M.ip x, printInt (M.port x), (h.network.payload f.msg.1 f.msg.2).wired 0⟩ := by
      rw [← h.spelled x]
      exact Network.datagram_at here
    have number := intOf_printInt (h.dotted x).port.1
    simp only [Function.comp_apply, Flight.map, List.length_map, whole, number]
    rw [show h.datagram f.msg = _ from same]
    simp only [(printed.loadable sized counters (short text)).load_wired,
      (printed.legible sized counters.1 counters.2.2.1).deserialized]
  log := by
    simp only [Pool.map, List.map_map]
    apply List.map_congr_left
    intro r _
    simp only [Function.comp_apply, Report.map, List.length_map]

theorem Regular.afoot (h : M.Regular) (asked : ∀ q ∈ qs, M.Asked q) {f : Flight (Query V × Phase V)}
    (afoot : h.network.Afoot qs f) : h.Sends f.msg :=
  ⟨asked _ afoot.1, afoot.2.valid⟩

theorem Regular.away (h : M.Regular) (asked : ∀ q ∈ qs, M.Asked q) :
    ∀ q ∈ qs, q.destination ≠ h.network.name q.source := fun q member => (asked q member).away

end MixedNetwork

/-! ### StationA in C and StationB in Python -/

def mixedStops : MixedNetwork Bool where
  program
    | false => .c (twoStops.station false)
    | true => .py pyStationB
  argv
    | false => ["127.0.0.1:4004".toList]
    | true => ["127.0.0.1:4002".toList]
  started
    | false => rfl
    | true => pyStationB_started
  resolve _ port := if port = 4002 then some false else if port = 4004 then some true else none

theorem mixedStops_regular : mixedStops.Regular where
  names := by unfold Function.Injective; decide
  dotted x := by cases x <;> exact local_dotted (by decide)
  spelled := by decide
  home := by decide
  others x arg member := by
    have spelled : ∀ x, ∀ arg ∈ mixedStops.argv x, arg = mixedStops.recorded !x := by decide +kernel
    exact ⟨!x, Bool.not_ne_self x, spelled x arg member⟩
  name := by decide
  scheduled x := by
    cases x
    · have all : ∀ e ∈ (twoStops.station false).copied, HHMM e.departure_time ∧ HHMM e.arrival_time ∧
          Printed 60 e.route_name := by decide +kernel
      exact all
    · have all : ∀ entry ∈ pyStationB.entries.drop 1, 5 ≤ entry.length ∧ HHMM (columns entry).departure_time ∧
          HHMM (columns entry).arrival_time ∧ Printed 60 (columns entry).route_name := by decide +kernel
      exact all

theorem mixedStops_asked : ∀ q ∈ [toStationB], mixedStops.Asked q := by
  intro q member
  rw [List.mem_singleton] at member
  subst member
  exact ⟨by decide, by decide +kernel, by decide⟩

theorem mixedStops_spacious : mixedStops_regular.network.Spacious 8 14 8 :=
  ⟨⟨by decide, by decide, by decide, by decide⟩, by decide⟩

namespace PyStation

/-- What a C station in the place of this one reads. Its search leaves out the last line. -/
def padded (st : PyStation) : List TIMETABLE := halt :: (st.entries.drop 1).map columns ++ [halt]

theorem twin_is_read (st : PyStation) {place : STATION} (headed : Scannable stationWidths place.columns)
    (rows : ∀ entry ∈ st.entries.drop 1, Scannable entryWidths (columns entry).columns)
    (few : 2 * (st.entries.length + 2) ≤ INT_MAX) (junk : TIMETABLE) (Station : STATION) (Timetable : List TIMETABLE) :
    ∃ l, readtimetable junk (some (rowsFile place st.padded)) Station Timetable = .ok l ∧ l.Station = place ∧
      l.count = st.twin.NUM_TIMETABLES ∧ l.Timetable.take l.count = st.twin.Timetable.take l.count := by
  have idle : Scannable entryWidths halt.columns := by decide
  have scannable : ∀ e ∈ st.padded, Scannable entryWidths e.columns := by
    intro e member
    simp only [padded, List.mem_append, List.mem_cons, List.mem_map, List.not_mem_nil, or_false] at member
    rcases member with (rfl | ⟨entry, inside, rfl⟩) | rfl
    · exact idle
    · exact rows entry inside
    · exact idle
  have size : st.padded.length = st.twin.NUM_TIMETABLES := by
    simp only [padded, twin, List.length_append, List.length_cons, List.length_map, List.length_nil]
  have count : st.twin.NUM_TIMETABLES ≤ st.entries.length + 2 := by
    simp only [twin, List.length_drop]
    omega
  obtain ⟨l, read, station, counted, table⟩ := readtimetable_rows headed scannable
    ((Nat.mul_le_mul_left 2 (size.trans_le count)).trans few) junk Station Timetable
  refine ⟨l, read, station, counted.trans size, table.trans ?_⟩
  have slots : st.twin.Timetable = st.padded ++ [halt] := by
    simp only [padded, twin, List.append_assoc, List.cons_append, List.nil_append]
  rw [counted, slots, List.take_left]

end PyStation

namespace MixedNetwork
variable {qs : List (Query V)} [Fintype V] {name address route : ℕ}

theorem Regular.fits (h : M.Regular) (spacious : h.network.Spacious name address route) :
    ∀ m, h.Sends m → (h.network.payload m.1 m.2).text.length < MAXDATASIZE := fun _ sends =>
  spacious.short h.network_regular.toCarried (h.asked sends.1) sends.2

/-- Deliveries alone bring a mixed network to rest. -/
theorem Regular.rests [DecidableEq V] (h : M.Regular) (spacious : h.network.Spacious name address route)
    (asked : ∀ q ∈ qs, M.Asked q) {t : Pool (Query V × Phase V) (Query V × List V)}
    (good : t.Good (h.network.Afoot qs) (h.network.Answered qs)) :
    ∃ s, Runs M.react (t.map h.datagram h.network.finished) s ∧ s.flying = 0 := by
  obtain ⟨u, rests, still⟩ := Network.search_rests h.network_wired good
  refine ⟨_, (h.mirrors (h.fits spacious)).runs (h.network_wired.afoot_preserved qs) (fun _ => h.afoot asked)
    good rests, ?_⟩
  rw [Pool.map, still, Multiset.map_zero]

/-- A mixed network can always be in the same state as a network of C stations: its own ones, and in the
place of a Python station one that reads the same timetable between two lines for `halt`. -/
theorem mixed_network_keeps_step (h : M.Regular) (spacious : h.network.Spacious name address route)
    (asked : ∀ q ∈ qs, M.Asked q) :
    (∀ s, Reaches M.react (launch (qs.map M.init)) s →
      ∃ c, Reaches h.network.react (launch (qs.map h.network.init)) c ∧ InStep s c) ∧
    (∀ c, Reaches h.network.react (launch (qs.map h.network.init)) c →
      ∃ s, Reaches M.react (launch (qs.map M.init)) s ∧ InStep s c) ∧
    (∀ x st, M.program x = .c st → h.network.station x = st) ∧
    ∀ x st, M.program x = .py st → h.network.station x = st.twin ∧
      ∀ place : STATION, Scannable stationWidths place.columns →
        (∀ entry ∈ st.entries.drop 1, Scannable entryWidths (columns entry).columns) →
        2 * (st.entries.length + 2) ≤ INT_MAX → ∀ junk Station Timetable, ∃ l,
          readtimetable junk (some (rowsFile place st.padded)) Station Timetable = .ok l ∧ l.Station = place ∧
            l.count = (h.network.station x).NUM_TIMETABLES ∧
            l.Timetable.take l.count = (h.network.station x).Timetable.take l.count := by
  classical
  have regular := h.network_regular
  have asked' : ∀ q ∈ qs, h.network.Asked q := fun q member => h.asked (asked q member)
  have keeps := regular.toWired.afoot_preserved qs
  have start := Network.launch_afoot (h.away asked)
  have fits := h.fits spacious
  have mirrors := h.mirrors fits
  have plain := regular.mirrors (spacious.fits regular.toCarried)
  refine ⟨fun s run => ?_, fun c run => ?_, fun x st runs => congrArg Program.station runs, fun x st runs => ?_⟩
  · rw [h.launch_image] at run
    obtain ⟨t, searched, rfl⟩ := mirrors.simulates.reaches keeps (fun _ => h.afoot asked) start run
    have good := searched.good keeps start
    refine ⟨t.map h.network.datagram h.network.finished, ?_,
      h.image_in_step fits fun f member => h.afoot asked (good.1 f member)⟩
    rw [Network.launch_image]
    exact plain.reaches keeps (fun _ => Network.afoot_sends asked') start searched
  · obtain ⟨t, searched, rfl, good⟩ := regular.reaches asked' run
    refine ⟨t.map h.datagram h.network.finished, ?_,
      h.image_in_step fits fun f member => h.afoot asked (good.1 f member)⟩
    rw [h.launch_image]
    exact mirrors.reaches keeps (fun _ => h.afoot asked) start searched
  · have same : h.network.station x = st.twin := congrArg Program.station runs
    rw [same]
    exact ⟨rfl, fun place headed rows few => st.twin_is_read headed rows few⟩

theorem mixedStops_keep_step :
    (∀ s, Reaches mixedStops.react (launch ([toStationB].map mixedStops.init)) s →
      ∃ c, Reaches mixedStops_regular.network.react
        (launch ([toStationB].map mixedStops_regular.network.init)) c ∧ InStep s c) ∧
    (∀ c, Reaches mixedStops_regular.network.react
        (launch ([toStationB].map mixedStops_regular.network.init)) c →
      ∃ s, Reaches mixedStops.react (launch ([toStationB].map mixedStops.init)) s ∧ InStep s c) ∧
    ∃ l, readtimetable halt (some (rowsFile ⟨"StationB".toList, "-31.97".toList, "115.89".toList⟩ pyStationB.padded))
        ⟨[], [], []⟩ [] = .ok l ∧ l.count = (mixedStops_regular.network.station true).NUM_TIMETABLES ∧
      l.Timetable.take l.count = (mixedStops_regular.network.station true).Timetable.take l.count := by
  obtain ⟨forth, back, _, python⟩ :=
    mixed_network_keeps_step mixedStops_regular mixedStops_spacious mixedStops_asked
  obtain ⟨_, reads⟩ := python true pyStationB rfl
  obtain ⟨l, read, _, count, table⟩ := reads ⟨"StationB".toList, "-31.97".toList, "115.89".toList⟩ (by decide)
    (by decide) (by decide) halt ⟨[], [], []⟩ []
  exact ⟨forth, back, l, read, count, table⟩

theorem Regular.each_path_once (h : M.Regular) (spacious : h.network.Spacious name address route)
    (listed : ∀ x, (M.argv x).Nodup) (asked : ∀ q ∈ qs, M.Asked q) {s : Pool PyDatagram (V × PAYLOAD)}
    (run : Runs M.react (launch (qs.map M.init)) s) (quiet : s.flying = 0) {i : ℕ} {q : Query V}
    (injected : qs[i]? = some q) :
    (((s.log.filter fun r => r.origin = i).map fun r => r.out : List _) : Multiset _) =
      (h.network.simplePaths q).val.map fun path => h.network.finished (q, path) := by
  classical
  have wired := h.network_wired
  rw [h.launch_image] at run
  obtain ⟨t, searched, rfl⟩ := (h.mirrors (h.fits spacious)).simulates.runs (wired.afoot_preserved qs)
    (fun _ => h.afoot asked) (Network.launch_afoot (h.away asked)) run
  have still : t.flying = 0 := Multiset.map_eq_zero.mp quiet
  have once := reported_each_once wired.loopless (fun x => wired.nbrs_nodup (listed x))
    (fun q member => Network.away_goal (asked q member).away) searched still i q injected
  rw [wired.routes_eq] at once
  have seen := congrArg (Multiset.map h.network.finished) once
  rw [Multiset.map_coe, List.map_map, Multiset.map_map] at seen
  have filtered : ((t.map h.datagram h.network.finished).log.filter fun r => r.origin = i) =
      (t.log.filter fun r => r.origin = i).map (Report.map h.datagram h.network.finished) := by
    rw [Pool.map, List.filter_map]
    rfl
  rw [filtered, List.map_map]
  exact seen

/-- Nothing lost, nothing duplicated: when no datagram is left in flight, every query of a mixed network
has finished with one payload for each simple path, the one that its network of C stations would have made. -/
theorem mixed_flood_finds_each_path_once (h : M.Regular) (spacious : h.network.Spacious name address route)
    (listed : ∀ x, (M.argv x).Nodup) (asked : ∀ q ∈ qs, M.Asked q) {s : Pool PyDatagram (V × PAYLOAD)}
    (run : Runs M.react (launch (qs.map M.init)) s) (quiet : s.flying = 0) {i : ℕ} {q : Query V}
    (injected : qs[i]? = some q) :
    (((s.log.filter fun r => r.origin = i).map fun r => r.out : List _) : Multiset _) =
      (h.network.simplePaths q).val.map fun path => h.network.finished (q, path) :=
  h.each_path_once spacious listed asked run quiet injected

theorem mixedStops_find_each_path_once : ∃ s, Runs mixedStops.react (launch ([toStationB].map mixedStops.init)) s ∧
    s.flying = 0 ∧ (((s.log.filter fun r => r.origin = 0).map fun r => r.out : List _) : Multiset _) =
      (mixedStops_regular.network.simplePaths toStationB).val.map fun path =>
        mixedStops_regular.network.finished (toStationB, path) := by
  have start := Network.launch_afoot (mixedStops_regular.away mixedStops_asked)
  obtain ⟨s, run, quiet⟩ := mixedStops_regular.rests mixedStops_spacious mixedStops_asked start
  rw [← mixedStops_regular.launch_image] at run
  exact ⟨s, run, quiet, mixed_flood_finds_each_path_once mixedStops_regular mixedStops_spacious (by decide)
    mixedStops_asked run quiet rfl⟩

end MixedNetwork

/-! ### Payloads that do not fit -/

theorem join_single (w : Text) : join [w] = w := by
  rw [join_cons, spaced_nil, List.append_nil]

/-- The default payload, once a Python station has put itself into it. -/
theorem serialize_unasked (name address : Text) : serialize (update_on_arrival name address defaultPayload) =
    printInt 0 ++ ' ' :: (printInt 1 ++ ' ' :: (printInt 1 ++ ' ' :: (name ++ ' ' :: (address ++ ' ' ::
      (blank ++ ' ' :: (blank ++ ' ' :: (' ' :: ' ' :: ("00:00".toList ++ [';'])))))))) := by
  rw [serialize_eq, PAYLOAD.header, PAYLOAD.joined]
  simp only [update_on_arrival, defaultPayload, if_true, List.nil_append, join_single, List.append_assoc,
    List.cons_append, zero_add]
  rfl

/-- A C station does not find a source in it. -/
theorem load_unasked {name address : Text} (hn : Token ' ' 60 name) (ha : Token ' ' 54 address) :
    load_payload (serialize (update_on_arrival name address defaultPayload)) = .error .null := by
  have free := hn.no_nul
  have free' := ha.no_nul
  let behind : Text := ' ' :: ' ' :: ("00:00".toList ++ [';'])
  let words : Text := name ++ ' ' :: (address ++ ' ' :: (blank ++ ' ' :: (blank ++ ' ' :: behind)))
  have text : serialize (update_on_arrival name address defaultPayload) =
      printInt 0 ++ ' ' :: (printInt 1 ++ ' ' :: (printInt 1 ++ ' ' :: words)) := serialize_unasked name address
  have plain : NUL ∉ words := by
    have pad : NUL ∉ blank := by decide
    have rest : NUL ∉ behind := by decide
    have space : NUL ≠ ' ' := by decide
    simp only [words, List.mem_append, List.mem_cons, free, free', pad, rest, space, or_self, not_false_iff]
  have copy : strdup (printInt 0 ++ ' ' :: (printInt 1 ++ ' ' :: (printInt 1 ++ ' ' :: words))) =
      printInt 0 ++ ' ' :: (printInt 1 ++ ' ' :: (printInt 1 ++ ' ' :: words)) := by
    have zero : NUL ∉ printInt 0 := by decide
    have one : NUL ∉ printInt 1 := by decide
    have space : NUL ≠ ' ' := by decide
    refine strdup_self ?_
    simp only [List.mem_append, List.mem_cons, zero, one, space, plain, or_self, not_false_iff]
  have r₀ : 0 ≤ (0 : ℤ) ∧ (0 : ℤ) ≤ INT_MAX := by decide
  have r₁ : 0 ≤ (1 : ℤ) ∧ (1 : ℤ) ≤ INT_MAX := by decide
  have dots : Token ' ' 5 blank := by decide
  have last : strtok ' ' behind = (some ("00:00".toList ++ [';']), []) := by decide
  have none : strtok ' ' ([] : Text) = (none, []) := rfl
  have fits : strcpy MAX_NAME_LENGTH (some ("00:00".toList ++ [';'])) = .ok ("00:00".toList ++ [';']) := by decide
  have one : (1 : ℤ).toNat = 1 := rfl
  rw [text, load_payload, copy]
  simp only [scanCounter_print r₀ ⟨_, rfl⟩, scanCounter_space, scanCounter_print r₁ ⟨_, rfl⟩, strtok_print r₀,
    strtok_print r₁, one, copyTokens, words, strtok_token hn, strtok_token ha, strtok_token dots,
    strcpy_ok hn (show 60 < MAX_NAME_LENGTH by decide),
    strcpy_ok ha (show 54 < MAX_PORT + INET6_ADDRSTRLEN + 1 by decide),
    strcpy_ok dots (show 5 < MAX_NAME_LENGTH by decide), strcpy_ok dots (show 5 < MAX_TIMESTRING by decide), last,
    fits, none, bind, Except.bind, pure, Except.pure]
  rfl

theorem sendto_unasked {name address : Text} (hn : Printed 60 name) (ha : Printed 54 address) :
    sendto (serialize (update_on_arrival name address defaultPayload)) =
      serialize (update_on_arrival name address defaultPayload) := by
  have pad : Printed 60 blank := by decide
  have noon : Printed 60 "00:00".toList := by decide
  have space : (' ' : Char).toNat < 128 := by decide
  have semicolon : (';' : Char).toNat < 128 := by decide
  refine encode_ascii fun c member => ?_
  simp only [serialize_unasked, List.mem_append, List.mem_cons, List.not_mem_nil, or_false] at member
  rcases member with i | rfl | i | rfl | i | rfl | s | rfl | s | rfl | s | rfl | s | rfl | rfl | rfl | s | rfl
  all_goals first
    | exact space
    | exact semicolon
    | exact printInt_ascii _ c i
    | exact hn.ascii c s
    | exact ha.ascii c s
    | exact pad.ascii c s
    | exact noon.ascii c s

/-- What `recv` leaves of a payload that outgrows the buffer is no payload. -/
theorem PAYLOAD.Printed.read_outgrown {p : PAYLOAD} (printed : p.Printed) (sized : p.Sized) (begun : p.stations ≠ [])
    (long : 1024 < p.text.length) : deserialize (p.text.take 1024) = .ok defaultPayload := by
  have whole : serialize p = p.text := sized.serialize_text begun
  have bare : ∀ w ∈ p.fields, ';' ∉ w := by
    intro w member semicolon
    obtain ⟨limit, field⟩ := printed.field member
    exact absurd (field.word.clean ';' semicolon) (by decide)
  have cut : p.text.take 1024 ≠ serialize p := by
    intro same
    have size := congrArg List.length same
    rw [whole, List.length_take] at size
    omega
  have front : p.text.take 1024 <+: serialize p := by
    rw [whole]
    exact List.take_prefix 1024 p.text
  exact deserialize_unmatched (matchPayload_semicolon (serialize_cut bare front cut))

/-- A Python station takes a payload that outgrows its buffer for the default payload, and floods that. -/
theorem Program.deliver_outgrown {st : PyStation} (named : st.STATION_NAME ≠ []) {p : PAYLOAD}
    (printed : p.Printed) (sized : p.Sized) (begun : p.stations ≠ []) (long : 1024 < p.text.length) :
    (Program.py st).deliver p.text =
      some ((st.flood defaultPayload).sent.map fun d => { d with message := sendto d.message }, none) := by
  have ascii : ∀ c ∈ p.text.take 1024, c.toNat < 128 := fun c member =>
    printed.ascii 0 c (List.mem_of_mem_take member)
  have ran : st.udp_branch (p.text.take 1024) = .ok (st.flood defaultPayload) := by
    rw [PyStation.udp_branch, printed.read_outgrown sized begun long]
    exact PyStation.handle_default named
  simp only [Program.deliver, decode_ascii ascii, ran]
  rfl

namespace MixedNetwork

/-- Where a payload outgrows the buffer of a Python station, this floods its default payload, and every C
station next to it leaves defined behaviour on that. -/
theorem outgrown_payload_stops_neighbours (h : M.Regular) {x : V} {st : PyStation} (runs : M.program x = .py st)
    {p : PAYLOAD} (printed : p.Printed) (sized : p.Sized) (begun : p.stations ≠ []) (long : 1024 < p.text.length) :
    deserialize (p.text.take 1024) = .ok defaultPayload ∧
    M.react ⟨M.ip x, M.port x, p.text⟩ =
      some ((st.flood defaultPayload).sent.map fun d => { d with message := sendto d.message }, []) ∧
    ∀ y ∈ h.network.nbrs x, ∃ d ∈ (st.flood defaultPayload).sent, M.resolve d.ip_addr d.udp_port = some y ∧
      ∀ c, M.program y = .c c → M.react { d with message := sendto d.message } = none := by
  have formed := h.formed runs
  have named : Printed 60 st.STATION_NAME := by
    have printed := h.name x
    rwa [MixedNetwork.name, runs] at printed
  have spelled : Printed 54 st.recorded := by
    have printed := (h.dotted x).printed
    rwa [← h.recorded_eq x, recorded, runs] at printed
  have delivered := Program.deliver_outgrown named.word.nonempty printed sized begun long
  rw [← runs] at delivered
  refine ⟨printed.read_outgrown sized begun long, ?_, fun y near => ?_⟩
  · simp only [react, h.home x, delivered, Option.map_some, Option.toList_none, List.map_nil]
  · obtain ⟨n, member, leads⟩ := List.mem_filterMap.mp near
    rw [show h.network.station x = st.twin from congrArg Program.station runs] at member
    obtain ⟨m, given, rfl⟩ := List.mem_map.mp member
    obtain ⟨dotted, other⟩ := formed.neighbours m given
    have leads : M.resolve m.ipaddr m.udpport = some y := by
      rw [← intOf_printInt dotted.port.1]
      exact leads
    have sent : (⟨m.ipaddr, m.udpport, serialize (update_on_arrival st.STATION_NAME st.recorded defaultPayload)⟩ :
        PyDatagram) ∈ (st.flood defaultPayload).sent := by
      have visited : (update_on_arrival st.STATION_NAME st.recorded defaultPayload).address = [st.recorded] := rfl
      refine List.mem_map.mpr ⟨m, List.mem_filter.mpr ⟨given, decide_eq_true ?_⟩, rfl⟩
      rw [visited, List.mem_singleton]
      exact other
    refine ⟨_, sent, leads, fun c program => ?_⟩
    have fails : udp_branch c (serialize (update_on_arrival st.STATION_NAME st.recorded defaultPayload)) =
        .error .null := by
      rw [udp_branch, load_unasked (named.toField.token breaks_space) (spelled.toField.token breaks_space)]
      rfl
    simp only [react, leads, program, Program.deliver, sendto_unasked named spelled, fails, ite_self,
      Option.map_none]

/-- A payload that has been at nine stations with long names. -/
def wide : PAYLOAD where
  found := 0
  hops := 9
  current := 9
  stations := List.replicate 9 (List.replicate 60 'S')
  address := List.replicate 9 "127.0.0.1:4000".toList
  routes := List.replicate 9 (List.replicate 60 'R')
  time := List.replicate 9 blank
  destination := "StationA".toList
  source := List.replicate 60 'S'
  start_time := "08:00".toList

theorem wide_printed : wide.Printed where
  stations s member := by
    rw [List.eq_of_mem_replicate member]
    decide
  address s member := by
    rw [List.eq_of_mem_replicate member]
    decide
  routes s member := by
    rw [List.eq_of_mem_replicate member]
    decide
  time s member := by
    rw [List.eq_of_mem_replicate member]
    decide
  destination := by decide
  source := by decide
  start_time := by decide

theorem wide_stops_StationA : deserialize (wide.text.take 1024) = .ok defaultPayload ∧
    mixedStops.react ⟨mixedStops.ip true, mixedStops.port true, wide.text⟩ =
      some ((pyStationB.flood defaultPayload).sent.map fun d => { d with message := sendto d.message }, []) ∧
    ∀ y ∈ mixedStops_regular.network.nbrs true, ∃ d ∈ (pyStationB.flood defaultPayload).sent,
      mixedStops.resolve d.ip_addr d.udp_port = some y ∧
        ∀ c, mixedStops.program y = .c c → mixedStops.react { d with message := sendto d.message } = none :=
  outgrown_payload_stops_neighbours mixedStops_regular rfl wide_printed ⟨rfl, rfl, rfl, rfl⟩ (by decide)
    (by decide +kernel)

end MixedNetwork

end TransitNet
