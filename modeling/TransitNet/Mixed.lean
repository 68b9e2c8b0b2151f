import TransitNet.Programs

/-! A mixed network refines the search. Where every text is ASCII and fits the receive buffer, a station
does what its twin in C would do. -/
namespace TransitNet
open Soup Relay Journey Words Utf8

variable {V : Type*} {M : MixedNetwork V}

/-! ### A payload at the station where it stands -/

namespace Network
variable {N : Network V} {q : Query V}

theorem datagram_text (N : Network V) (m : Query V × Phase V) : (N.datagram m).text = (N.payload m.1 m.2).text := by
  unfold datagram
  split <;> rfl

theorem length_opening (N : Network V) (q : Query V) : (N.payload q (.flood [] q.source)).text.length =
    q.destination.length + (N.name q.source).length + q.start_time.length + 9 := by
  have zero : (printInt 0).length = 1 := by decide
  have digits : (N.payload q (.flood [] q.source)).digits = 3 := by
    simp only [PAYLOAD.digits, payload, onPath, List.length_nil, Nat.cast_zero, zero]
  rw [PAYLOAD.length_text, digits]
  change 3 + 2 + (0 + 0) + (0 + 0) + (0 + 0) + (0 + 0) +
    (q.destination.length + (N.name q.source).length + q.start_time.length + 4) = _
  omega

/-- In every phase of a search the payload is where the station expects it. -/
theorem Wired.expects (wired : N.Wired) (away : q.destination ≠ N.name q.source) {ph : Phase V} {x : V}
    (valid : ph.Valid N.nbrs (N.task.goal q) q.source) (here : ph.at = some x) :
    (N.station x).Expects (N.payload q ph) := by
  have sized := sized_payload (N := N) (q := q) valid
  obtain ⟨low, high, nonneg, inside⟩ := N.payload_counters q valid
  have ends : (N.payload q ph).destination = q.destination ∧ (N.payload q ph).source = N.name q.source := by
    cases ph <;> exact ⟨rfl, rfl⟩
  have apart : (N.payload q ph).destination ≠ (N.payload q ph).source := by
    rw [ends.1, ends.2]
    exact away
  -- the two ends of a path, and the station that the counter stands at
  have along : ∀ {path : List V} {k : ℕ}, Route N.nbrs (N.task.goal q) q.source path → path[k - 1]? = some x →
      2 ≤ (path.length : ℤ) ∧ (path.map N.name)[((k : ℤ) - 1).toNat]? = some (N.name x) ∧
        (path.map N.name)[0]? = some (N.name q.source) ∧
        (path.map N.name)[((path.length : ℤ) - 1).toNat]? = some q.destination := by
    intro path k route standing
    have two := route.two_le (away_goal away)
    have start : path[0]? = some q.source := by
      rw [← List.head?_eq_getElem?]
      exact route.head?
    obtain ⟨front, d, rfl, met, _⟩ := route
    have last : (front ++ [d])[(front ++ [d]).length - 1]? = some d := by simp
    exact ⟨by omega, get_standing standing, get_name start,
      (get_standing last).trans (congrArg some (of_decide_eq_true met))⟩
  cases ph with
  | flood path y =>
      cases here
      have walk : Walk N.nbrs (N.task.goal q) q.source path x := valid
      have simple := (List.nodup_append.mp walk.simple).2.2
      have fresh : x ∉ path := fun member => simple x member x (List.mem_singleton_self x) rfl
      refine ⟨sized, apart, ⟨low, high⟩, fun _ => ⟨rfl, ?_, ?_, ?_⟩, fun other => absurd rfl other, ?_, ?_⟩
      · exact fun member => fresh ((List.mem_map_of_injective wired.names).mp member)
      · exact fun member => fresh ((List.mem_map_of_injective wired.recorded_injective).mp member)
      · have start := walk.start
        cases path with
        | nil =>
            cases start
            exact .inl ⟨rfl, rfl⟩
        | cons a rest =>
            cases start
            exact .inr rfl
      · rintro (other | other) <;> cases other
      · intro other
        cases other
  | back path k =>
      obtain ⟨route, first, behind⟩ := valid
      refine ⟨sized, apart, ⟨low, high⟩, fun other => (by cases other), fun _ => along route here, fun _ => ?_,
        fun other => (by cases other)⟩
      simp only [payload, onPath]
      omega
  | ride path k =>
      obtain ⟨route, first, behind⟩ := valid
      refine ⟨sized, apart, ⟨low, high⟩, fun other => (by cases other), fun _ => along route here,
        fun other => (by rcases other with other | other <;> cases other), fun _ => ?_⟩
      simp only [payload, onPath]
      omega
  | home path k =>
      obtain ⟨route, first, behind⟩ := valid
      refine ⟨sized, apart, ⟨low, high⟩, fun other => (by cases other), fun _ => along route here, fun _ => ?_,
        fun other => (by cases other)⟩
      simp only [payload, onPath]
      omega

/-- A payload that has come back to its source is at the first station of its path. -/
theorem Wired.back_first (wired : N.Wired) {ph : Phase V} {x : V}
    (valid : ph.Valid N.nbrs (N.task.goal q) q.source) (here : ph.at = some x)
    (back : (N.payload q ph).found = 1) (source : (N.payload q ph).source = N.name x) :
    (N.payload q ph).current = 1 := by
  cases ph with
  | back path k =>
      obtain ⟨route, first, behind⟩ := valid
      have start := (wired.name_source route here).mp source
      simp only [payload, onPath]
      omega
  | flood path y => cases back
  | ride path k => cases back
  | home path k => cases back

end Network

namespace MixedNetwork
variable {q : Query V}

theorem Regular.network_regular (h : M.Regular) : h.network.Regular where
  name x := (h.name x).toField.token breaks_space
  recorded x := by
    have field := (h.dotted x).printed.toField
    rw [← h.recorded_eq x] at field
    exact field.token breaks_space
  endpoint := h.network_wired.endpoint
  home := h.network_wired.home
  names := h.names
  others := h.others
  entries x e member := by
    obtain ⟨departs, arrives, route⟩ := (h.scheduled x).copied e member
    exact ⟨departs.printed.toField.token breaks_space, route.toField.token breaks_space,
      arrives.printed.toField.token breaks_space⟩

theorem Regular.asked (h : M.Regular) (asked : M.Asked q) : h.network.Asked q where
  destination := asked.destination.toField.token breaks_space
  start_time := asked.start_time.printed.toField.token (by decide)
  away := asked.away

theorem Regular.timed (h : M.Regular) (q : Query V) (ph : Phase V) :
    ∀ t ∈ (h.network.payload q ph).time, Timed t := by
  intro t member
  rcases (h.network.payload_holds q ph).1 t member with rfl | rfl | ⟨x, e, copied, rfl | rfl⟩
  · exact .inr (.inl rfl)
  · exact .inr (.inr rfl)
  · exact .inl ((h.scheduled x).copied e copied).1
  · exact ((h.scheduled x).copied e copied).2.1

theorem Regular.printed (h : M.Regular) (asked : M.Asked q) (ph : Phase V) :
    (h.network.payload q ph).Printed := by
  obtain ⟨path, stations, address, _⟩ := h.network.payload_lists q ph
  have ends : (h.network.payload q ph).destination = q.destination ∧
      (h.network.payload q ph).source = M.name q.source ∧
      (h.network.payload q ph).start_time = q.start_time := by
    cases ph <;> exact ⟨rfl, rfl, rfl⟩
  refine ⟨?_, ?_, ?_, fun t member => (h.timed q ph t member).printed, ?_, ?_, ?_⟩
  · intro s member
    rw [stations] at member
    obtain ⟨x, _, rfl⟩ := List.mem_map.mp member
    exact h.name x
  · intro s member
    rw [address] at member
    obtain ⟨x, _, rfl⟩ := List.mem_map.mp member
    have printed := (h.dotted x).printed
    rwa [← h.recorded_eq x] at printed
  · intro r member
    rcases (h.network.payload_holds q ph).2 r member with rfl | rfl | ⟨x, e, copied, rfl⟩
    · decide
    · decide
    · exact ((h.scheduled x).copied e copied).2.2
  · rw [ends.1]
    exact asked.destination
  · rw [ends.2.1]
    exact h.name q.source
  · rw [ends.2.2]
    exact asked.start_time.printed

theorem Regular.readable (h : M.Regular) (asked : M.Asked q) (ph : Phase V) :
    (h.network.payload q ph).Readable where
  address a member := by
    obtain ⟨path, _, address, _⟩ := h.network.payload_lists q ph
    rw [address] at member
    obtain ⟨x, _, rfl⟩ := List.mem_map.mp member
    exact ⟨_, _, h.dotted x, h.recorded_eq x⟩
  time := h.timed q ph
  start_time := by
    have start : (h.network.payload q ph).start_time = q.start_time := by cases ph <;> rfl
    rw [start]
    exact asked.start_time

theorem Regular.formed (h : M.Regular) {x : V} {st : PyStation} (runs : M.program x = .py st) : st.Formed where
  entries entry member := by
    have scheduled := h.scheduled x
    rw [runs] at scheduled
    obtain ⟨whole, departs, arrives, _⟩ := scheduled entry member
    exact ⟨whole, departs, arrives⟩
  neighbours n member := by
    have started := M.started x
    rw [runs] at started
    obtain ⟨arg, given, parsed⟩ := (mapM_mem started).1 n member
    obtain ⟨y, other, rfl⟩ := h.others x arg given
    rw [h.recorded_eq y, (h.dotted y).parse, Except.ok.injEq] at parsed
    subst parsed
    refine ⟨h.dotted y, fun same => other ?_⟩
    have own : M.recorded x = st.recorded := by
      rw [recorded, runs]
      rfl
    exact h.network_wired.recorded_injective ((h.recorded_eq y).trans (same.trans own.symm))

variable [DecidableEq V]

/-- Whichever program the station runs, it does in every phase what the search does. -/
theorem Regular.delivers (h : M.Regular) (asked : M.Asked q) {ph : Phase V} {x : V}
    (valid : ph.Valid h.network.nbrs (h.network.task.goal q) q.source) (here : ph.at = some x) {n : ℕ}
    (short : ((h.network.payload q ph).wired n).length < MAXDATASIZE) : ∃ finished,
      (M.program x).deliver ((h.network.payload q ph).wired n) = some
        ((ph.next h.network.nbrs (h.network.task.goal q)).map fun ph' => (h.network.datagram (q, ph')).numbered,
          finished) ∧
      finished.toList = ph.done.map fun path => (h.network.finished (q, path)).2 := by
  have regular := h.network_regular
  have printed := h.printed asked ph
  have sized := Network.sized_payload (N := h.network) (q := q) valid
  have counters := h.network.payload_counters q valid
  obtain ⟨outcome, handled, sent, finished, _⟩ := regular.handles asked.away valid here
  have text : ∀ ph' ∈ ph.next h.network.nbrs (h.network.task.goal q),
      sendto (h.network.datagram (q, ph')).text = (h.network.datagram (q, ph')).text := by
    intro ph' _
    rw [h.network.datagram_text]
    exact encode_ascii ((h.printed asked ph').ascii 0)
  refine ⟨outcome.finished, ?_, finished⟩
  cases runs : M.program x with
  | c st =>
      have same : h.network.station x = st := congrArg Program.station runs
      rw [same] at handled
      have branch : udp_branch st ((h.network.payload q ph).wired n) = .ok outcome := by
        rw [(printed.loadable sized counters short).udp_wired n]
        exact handled
      simp only [Program.deliver, if_pos short, branch, Outcome.numbered, sent, List.map_map]
      rfl
  | py st =>
      have same : h.network.station x = st.twin := congrArg Program.station runs
      have expects := regular.toWired.expects asked.away valid here
      have named : ∀ s ∈ (h.network.payload q ph).stations, ' ' ∉ s := fun s member =>
        (printed.stations s member).word.not_mem (by decide)
      rw [same] at handled expects
      obtain ⟨outcome', other, _, _, handled', ran, _, equal⟩ :=
        (Alike.twin st).matched (h.formed runs) expects (h.readable asked ph) named
      rw [handled, Except.ok.injEq] at handled'
      subst handled'
      have twin := equal rfl fun back source => by
        have own : (h.network.payload q ph).source = h.network.name x := source.trans (by rw [Network.name, same]; rfl)
        exact regular.toWired.back_first valid here back own
      have whole : ((h.network.payload q ph).wired n).take 1024 = (h.network.payload q ph).wired n :=
        List.take_of_length_le (Nat.le_of_lt short)
      have read : deserialize ((h.network.payload q ph).wired n) = .ok (h.network.payload q ph) :=
        (printed.legible sized counters.1 counters.2.2.1).deserialized n
      have branch : st.udp_branch ((h.network.payload q ph).wired n) = .ok other := by
        rw [PyStation.udp_branch, read]
        exact ran
      simp only [Program.deliver, whole, decode_ascii (printed.ascii n), branch, twin, Outcome.numbered, sent,
        List.map_map]
      rw [Option.some.injEq, Prod.mk.injEq]
      refine ⟨List.map_congr_left fun ph' next => ?_, rfl⟩
      simp only [Function.comp_apply, text ph' next]
      rfl

/-! ### The mixed network refines the search -/

/-- The datagram of a message of a search. Only the first one of a query is spelled in the way of the
program that sends it. -/
def Wired.datagram (h : M.Wired) (m : Query V × Phase V) : PyDatagram :=
  match m.2 with
  | .flood [] _ => M.init m.1
  | ph => (h.network.datagram (m.1, ph)).numbered

/-- Valid messages of a query that can be asked. -/
def Wired.Sends (h : M.Wired) (m : Query V × Phase V) : Prop := M.Asked m.1 ∧ h.network.task.valid m

omit [DecidableEq V] in
theorem Wired.datagram_later (h : M.Wired) {path : List V} (some : path ≠ []) (x : V) :
    h.datagram (q, .flood path x) = (h.network.datagram (q, .flood path x)).numbered := by
  cases path with
  | nil => exact absurd rfl some
  | cons a path => rfl

theorem Wired.datagram_next (h : M.Wired) {nbrs : V → List V} {goal : V → Bool} {ph ph' : Phase V}
    (next : ph' ∈ ph.next nbrs goal) : h.datagram (q, ph') = (h.network.datagram (q, ph')).numbered := by
  cases ph' with
  | flood path y =>
      refine h.datagram_later ?_ y
      rintro rfl
      cases ph with
      | flood path x =>
          simp only [Phase.next] at next
          split at next
          · cases List.mem_singleton.mp next
          · obtain ⟨z, _, same⟩ := List.mem_map.mp next
            have empty := (Phase.flood.inj same).1
            exact absurd (List.append_eq_nil_iff.mp empty).2 (List.cons_ne_nil x [])
      | back path k =>
          simp only [Phase.next] at next
          split at next <;> cases List.mem_singleton.mp next
      | ride path k =>
          simp only [Phase.next] at next
          split at next <;> cases List.mem_singleton.mp next
      | home path k =>
          simp only [Phase.next] at next
          split at next
          · cases next
          · cases List.mem_singleton.mp next
  | back path k => rfl
  | ride path k => rfl
  | home path k => rfl

omit [DecidableEq V] in
/-- An init payload is spelled with four spaces more by a Python station. -/
theorem Regular.init_wired (h : M.Regular) (asked : M.Asked q) : ∃ n ≤ 4,
    M.init q = ⟨M.ip q.source, M.port q.source, (h.network.payload q (.flood [] q.source)).wired n⟩ := by
  have printed := h.printed asked (.flood [] q.source)
  cases runs : M.program q.source with
  | c st =>
      refine ⟨0, by decide, ?_⟩
      have same : h.network.init q = ⟨st.local_ip, st.UDP_port, initText q.destination st.station_name q.start_time⟩ := by
        rw [Network.init, Network.ip, Network.port, Network.name, show h.network.station q.source = st from
          congrArg Program.station runs]
      have opening := h.network.init_eq q
      have text := congrArg Datagram.text (same.symm.trans opening)
      rw [h.network.datagram_text] at text
      have said : initText q.destination st.station_name q.start_time =
          (h.network.payload q (.flood [] q.source)).wired 0 := text
      rw [init, ip, port, runs, Program.ask, said]
      rfl
  | py st =>
      refine ⟨4, le_refl 4, ?_⟩
      have same : init_payload q.destination st.STATION_NAME q.start_time =
          h.network.payload q (.flood [] q.source) := by
        have name : h.network.name q.source = st.STATION_NAME := congrArg (fun p => p.station.station_name) runs
        simp only [Network.payload, Network.onPath, name]
        rfl
      have sized : (h.network.payload q (.flood [] q.source)).Sized :=
        Network.sized_payload (Walk.alone h.network.nbrs (h.network.task.goal q) q.source)
      have text : serialize (init_payload q.destination st.STATION_NAME q.start_time) =
          (h.network.payload q (.flood [] q.source)).wired 4 := by
        rw [same, serialize_eq]
        rcases sized.joined with ⟨some, _⟩ | ⟨_, wider⟩
        · exact absurd rfl some
        · rw [wider]
          rfl
      rw [init, ip, port, runs, Program.ask, PyStation.ask, text]
      simp only [sendto, encode_ascii (printed.ascii 4)]
      rfl

omit [DecidableEq V] in
/-- Every datagram of a search is the text of its payload, addressed to where it stands. -/
theorem Regular.datagram_wired (h : M.Regular) {ph : Phase V} {x : V} (sends : h.Sends (q, ph)) (here : ph.at = some x) :
    ∃ n, h.datagram (q, ph) = ⟨M.ip x, M.port x, (h.network.payload q ph).wired n⟩ ∧
      ((h.network.payload q ph).text.length < MAXDATASIZE → ((h.network.payload q ph).wired n).length < MAXDATASIZE) := by
  have later : h.datagram (q, ph) = (h.network.datagram (q, ph)).numbered →
      ∃ n, h.datagram (q, ph) = ⟨M.ip x, M.port x, (h.network.payload q ph).wired n⟩ ∧
        ((h.network.payload q ph).text.length < MAXDATASIZE →
          ((h.network.payload q ph).wired n).length < MAXDATASIZE) := by
    intro same
    refine ⟨0, ?_, id⟩
    have number : intOf (h.network.port x) = M.port x := by
      rw [Network.port, show (h.network.station x).UDP_port = _ from h.spelled x,
        intOf_printInt (h.dotted x).port.1]
    rw [same, Network.datagram_at here, Datagram.numbered, number]
    rfl
  cases ph with
  | flood path y =>
      cases here
      cases path with
      | nil =>
          have start : x = q.source := Option.some.inj sends.2.start
          subst start
          obtain ⟨n, few, same⟩ := h.init_wired sends.1
          refine ⟨n, same, fun _ => ?_⟩
          have d : q.destination.length ≤ 60 := sends.1.destination.short
          have s : (h.network.name q.source).length ≤ 60 := (h.name q.source).short
          have t : q.start_time.length ≤ 5 := sends.1.start_time.printed.short
          have text := h.network.length_opening q
          have size := (h.network.payload q (.flood [] q.source)).length_wired n
          simp only [MAXDATASIZE]
          omega
      | cons a path => exact later rfl
  | back path k => exact later rfl
  | ride path k => exact later rfl
  | home path k => exact later rfl

/-- Where all payloads fit the mixed network does everything that the search does. -/
theorem Regular.mirrors (h : M.Regular)
    (fits : ∀ m, h.Sends m → (h.network.payload m.1 m.2).text.length < MAXDATASIZE) :
    Mirrors h.Sends h.datagram h.network.finished h.network.task.reaction M.react := by
  rintro ⟨q, ph⟩ sends
  obtain ⟨x, here⟩ := Phase.Valid.at_isSome sends.2
  obtain ⟨n, same, short⟩ := h.datagram_wired sends here
  obtain ⟨finished, delivered, done⟩ := h.delivers sends.1 sends.2 here (short (fits _ sends))
  rw [same, react]
  simp only [h.home x, delivered, Option.map_some, Task.reaction, List.map_map, Option.some.injEq, Prod.mk.injEq]
  constructor
  · apply List.map_congr_left
    intro ph' next
    exact (h.datagram_next next).symm
  · rw [done, List.map_map]
    apply List.map_congr_left
    intro path last
    obtain ⟨rfl, route⟩ := Phase.Valid.done sends.2 last
    have start : some x = some q.source := by
      rw [← here, Phase.at, ← List.head?_eq_getElem?]
      exact route.head?
    rw [Option.some.inj start]
    rfl

end MixedNetwork
end TransitNet
