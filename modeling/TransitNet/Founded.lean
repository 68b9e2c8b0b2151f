import TransitNet.Startup
import Mathlib.Combinatorics.SimpleGraph.Connectivity.Connected

/-! Networks that have been generated and started: what holds of all of them, if the stations are told
the address of their host, and if they are told `localhost` as the scripts write it. -/
namespace TransitNet
open Soup Relay Words Utf8

variable {n : ℕ}

/-! ### Ways through the matrix -/

namespace Generator

/-- A way without repetition, along lines only. -/
structure Leads (adj : Adjacency n) (i j : Fin n) (path : List (Fin n)) : Prop where
  simple : path.Nodup
  linked : path.IsChain fun a b => adj a b = true
  start : path.head? = some i
  goal : path.getLast? = some j

theorem Connected.leads {adj : Adjacency n} (connected : Connected adj) (undirected : Undirected adj) (i j : Fin n) :
    ∃ path, Leads adj i j path := by
  let G : SimpleGraph (Fin n) :=
    { Adj := fun a b => adj a b = true
      symm := ⟨undirected.both⟩
      loopless := ⟨fun a linked => by simp [undirected.loopless a] at linked⟩ }
  have reachable : G.Reachable i j :=
    (SimpleGraph.reachable_iff_reflTransGen i j).mpr (connected i j).to_reflTransGen
  obtain ⟨path, simple⟩ := reachable.exists_isPath
  refine ⟨path.support, simple.support_nodup, path.isChain_adj_support, ?_, ?_⟩
  · rw [List.head?_eq_some_head path.support_ne_nil, path.head_support]
  · rw [List.getLast?_eq_some_getLast path.support_ne_nil, path.getLast_support]

end Generator

open Generator

/-! ### On the address of the host -/

namespace Generator.Output
variable (out : Output n) (port : Fin n → ℕ) (ip : Text) (files : Text → Option Text)

/-- All stations have been started on one host, by its address, each with one of the two programs. -/
structure Founded (M : MixedNetwork (Fin n)) : Prop where
  installed : out.Installed port ip files
  digits : ∀ c ∈ ip, c.isDigit = true ∨ c = '.'
  argv : ∀ i, M.argv i = out.addresses port ip i
  program : ∀ i,
    (∃ unset junk st, M.program i = .c st ∧ Station.main files ip unset junk
      (Script.assignports.argv (out.start port ip .assignports i)) = .ok (some st)) ∨
    ∃ st, M.program i = .py st ∧ PyStation.main files ip (Script.pyports.argv (out.start port ip .pyports i)) = some st
  resolve : ∀ i, M.resolve ip (port i + 1) = some i

variable {out port ip files} {M : MixedNetwork (Fin n)} {hours : Hours}

theorem Founded.dotted (founded : out.Founded port ip files M) (i : Fin n) : Dotted ip (port i + 1 : ℕ) where
  nonempty := founded.installed.nonempty
  short := founded.installed.short
  plain := founded.digits
  port := ⟨Int.natCast_nonneg _, Int.ofNat_lt.mpr (founded.installed.ports i)⟩

/-- What the stations have in common, whatever program they run. -/
structure Running (out : Output n) (port : Fin n → ℕ) (ip : Text) (i : Fin n) (program : Program) : Prop where
  station_name : program.station.station_name = out.station i
  local_ip : program.station.local_ip = ip
  UDP_port : program.station.UDP_port = Nat.toDigits 10 (port i + 1)
  udp_port : program.udp_port = (port i + 1 : ℕ)
  scheduled : program.Scheduled
  routes : ∀ e ∈ program.station.copied, e.route_name.length ≤ 8

theorem route_plain (i : Fin n) (b : Bus n) : Plain 8 (out.row i b).route_name := by
  have bus : Plain 3 "bus".toList := .of_all (by decide) (by decide) (by decide)
  have dash : Plain 1 ['_'] := .of_all (by decide) (by decide) (by decide)
  exact ((bus.append (nodename_plain i)).append dash).append (nodename_plain b.j)

theorem printed_of_plain {limit : ℕ} {s : Text} (plain : Plain limit s) : Printed limit s := by
  refine ⟨⟨⟨plain.nonempty, fun c member => ?_⟩, plain.short⟩, plain.ascii⟩
  have printable := plain.printable c member
  have white : whitespace c = false := (Bool.or_eq_false_iff.mp (printable_separates printable)).1
  obtain ⟨⟨low, _⟩, other⟩ := printable_iff.mp printable
  rw [breaks, white, Bool.false_or, Bool.or_eq_false_iff, decide_eq_false_iff_not, decide_eq_false_iff_not]
  refine ⟨other, ?_⟩
  rintro rfl
  exact absurd low (by decide)

theorem Serves.some {i : Fin n} {timetable : List (Bus n)} (serves : out.Serves hours i timetable) : timetable ≠ [] := by
  rintro rfl
  cases serves.first

theorem Founded.running (founded : out.Founded port ip files M) (sound : out.Sound hours) (i : Fin n) :
    out.Running port ip i (M.program i) := by
  obtain ⟨timetable, member⟩ := sound.timetable i
  have serves := sound.serves member
  rcases founded.program i with ⟨unset, junk, st, runs, booted⟩ | ⟨st, runs, booted⟩
  · obtain ⟨st', booted', up⟩ := sound.boots founded.installed ip unset junk member
    rw [booted, Except.ok.injEq, Option.some.injEq] at booted'
    subst booted'
    rw [runs]
    refine ⟨up.station_name, up.local_ip, up.UDP_port, ?_, fun e copied => ?_, fun e copied => ?_⟩
    · rw [Program.udp_port, up.UDP_port, intOf_toDigits]
    · obtain ⟨b, inside, rfl⟩ := up.copied serves.some e copied
      obtain ⟨departs, arrives⟩ := serves.row_times inside
      exact ⟨departs, arrives, (printed_of_plain (route_plain i b)).mono (by decide)⟩
    · obtain ⟨b, _, rfl⟩ := up.copied serves.some e copied
      exact (route_plain i b).short
  · rw [sound.boots_python founded.installed ip member, Option.some.injEq] at booted
    subst booted
    rw [runs]
    have same : ∀ b : Bus n, columns (out.row i b).columns = out.row i b := fun _ => rfl
    refine ⟨rfl, rfl, printInt_natCast _, rfl, fun entry listed => ?_, fun e copied => ?_⟩
    · obtain ⟨b, inside, rfl⟩ := List.mem_map.mp listed
      obtain ⟨departs, arrives⟩ := serves.row_times inside
      rw [same]
      exact ⟨Nat.le_refl 5, departs, arrives, (printed_of_plain (route_plain i b)).mono (by decide)⟩
    · have still : blank.length ≤ 8 := by decide
      rcases List.mem_cons.mp copied with rfl | later
      · exact still
      · rw [Program.station, PyStation.twin_entries] at later
        rcases List.mem_cons.mp later with rfl | listed
        · exact still
        · obtain ⟨_, row, rfl⟩ := List.mem_map.mp listed
          obtain ⟨b, _, rfl⟩ := List.mem_map.mp row
          exact (route_plain i b).short

theorem Founded.recorded (founded : out.Founded port ip files M) (sound : out.Sound hours) (i : Fin n) :
    M.recorded i = ip ++ ':' :: Nat.toDigits 10 (port i + 1) := by
  have running := founded.running sound i
  rw [MixedNetwork.recorded, Station.recorded, running.local_ip, running.UDP_port]

/-- Both programs understand each other on such a network. -/
theorem Founded.regular (founded : out.Founded port ip files M) (sound : out.Sound hours) : M.Regular where
  names i j same := by
    have equal : out.station i = out.station j :=
      (founded.running sound i).station_name.symm.trans (same.trans (founded.running sound j).station_name)
    exact out.station_injective sound.few equal
  dotted i := by
    have running := founded.running sound i
    have dotted := founded.dotted i
    rwa [← running.local_ip, ← running.udp_port] at dotted
  spelled i := by
    have running := founded.running sound i
    rw [running.UDP_port, MixedNetwork.port, running.udp_port, printInt_natCast]
  home i := by
    have running := founded.running sound i
    rw [MixedNetwork.ip, running.local_ip, MixedNetwork.port, running.udp_port, Nat.cast_succ]
    exact founded.resolve i
  others i arg given := by
    rw [founded.argv i] at given
    obtain ⟨j, member, rfl⟩ := List.mem_map.mp given
    refine ⟨j, ?_, (founded.recorded sound j).symm⟩
    rintro rfl
    have linked := (List.mem_filter.mp member).2
    rw [sound.undirected.loopless] at linked
    cases linked
  name i := by
    rw [MixedNetwork.name, (founded.running sound i).station_name]
    exact (printed_of_plain (out.station_plain i)).mono (by decide)
  scheduled i := (founded.running sound i).scheduled

/-- The lines of the matrix are the lines of the network. -/
theorem Founded.nbrs (founded : out.Founded port ip files M) (sound : out.Sound hours) (i : Fin n) :
    (founded.regular sound).network.nbrs i = out.neighbourhood i := by
  have regular := founded.regular sound
  have injective : Function.Injective M.recorded := regular.network_wired.recorded_injective
  refine List.map_injective_iff.mpr injective ?_
  have told : M.argv i = ((founded.regular sound).network.nbrs i).map M.recorded := regular.network_wired.argv_eq i
  rw [← told, founded.argv, addresses]
  exact List.map_congr_left fun j _ => (founded.recorded sound j).symm

theorem Founded.listed (founded : out.Founded port ip files M) (sound : out.Sound hours) (i : Fin n) :
    (M.argv i).Nodup := by
  have injective := (founded.regular sound).network_wired.recorded_injective
  have same : M.argv i = (out.neighbourhood i).map M.recorded := by
    rw [founded.argv, addresses]
    exact List.map_congr_left fun j _ => (founded.recorded sound j).symm
  rw [same]
  exact ((List.nodup_finRange n).filter _).map injective

theorem Founded.spacious (founded : out.Founded port ip files M) (sound : out.Sound hours) {address : ℕ}
    (short : ∀ i, (ip ++ ':' :: Nat.toDigits 10 (port i + 1)).length ≤ address)
    (room : n * (address + 27) + 86 < MAXDATASIZE) : (founded.regular sound).network.Spacious 10 address 8 := by
  refine ⟨⟨fun i => ?_, fun i => ?_, fun i => (founded.running sound i).routes, by decide⟩, ?_⟩
  · have name : (founded.regular sound).network.name i = out.station i := (founded.running sound i).station_name
    rw [name]
    exact (out.station_plain i).short
  · have address : (founded.regular sound).network.recorded i = ip ++ ':' :: Nat.toDigits 10 (port i + 1) :=
      founded.recorded sound i
    rw [address]
    exact short i
  · have few : n ≤ 99 := by
      unfold MAXDATASIZE at room
      nlinarith
    have two : figures n ≤ 2 := (figures_mono (Int.natCast_nonneg n) (Int.ofNat_le.mpr few)).trans (by decide)
    rw [Fintype.card_fin]
    have same : 10 + address + 8 + 9 = address + 27 := by omega
    rw [same]
    omega

theorem Founded.simplePath_iff (founded : out.Founded port ip files M) (sound : out.Sound hours) {q : Query (Fin n)}
    {j : Fin n} (asks : q.destination = out.station j) {path : List (Fin n)} :
    (founded.regular sound).network.SimplePath q path ↔ Leads out.adj q.source j path := by
  have onward : ∀ {a b}, b ∈ (founded.regular sound).network.nbrs a ↔ out.adj a b = true := by
    intro a b
    rw [founded.nbrs sound, neighbourhood, List.mem_filter, and_iff_right (List.mem_finRange b)]
  have named : ∀ d, (founded.regular sound).network.name d = q.destination ↔ d = j := by
    intro d
    have name : (founded.regular sound).network.name d = out.station d := (founded.running sound d).station_name
    rw [name, asks, (out.station_injective sound.few).eq_iff]
  constructor
  · rintro ⟨simple, start, linked, d, last, met⟩
    rw [(named d).mp met] at last
    exact ⟨simple, linked.imp fun _ _ => onward.mp, start, last⟩
  · rintro ⟨simple, linked, start, last⟩
    exact ⟨simple, start, linked.imp fun _ _ => onward.mpr, j, last, (named j).mpr rfl⟩

end Generator.Output

/-- Station after station can be started by the address of the host, with whatever program. -/
theorem Generator.Output.Sound.founded {out : Output n} {port : Fin n → ℕ} {ip : Text} {files : Text → Option Text}
    {hours : Hours} (sound : out.Sound hours) (installed : out.Installed port ip files)
    (digits : ∀ c ∈ ip, c.isDigit = true ∨ c = '.') (resolve : Text → ℤ → Option (Fin n))
    (home : ∀ i, resolve ip (port i + 1) = some i) (inC : Fin n → Bool) :
    ∃ M : MixedNetwork (Fin n), out.Founded port ip files M := by
  have start : ∀ i, ∃ program : Program, program.Started (out.addresses port ip i) ∧
      ((∃ unset junk st, program = .c st ∧ Station.main files ip unset junk
        (Script.assignports.argv (out.start port ip .assignports i)) = .ok (some st)) ∨
      ∃ st, program = .py st ∧ PyStation.main files ip (Script.pyports.argv (out.start port ip .pyports i)) = some st) := by
    intro i
    obtain ⟨timetable, member⟩ := sound.timetable i
    cases inC i with
    | true =>
        obtain ⟨st, booted, up⟩ := sound.boots installed ip (fun _ => 0) ⟨[], [], [], [], []⟩ member
        refine ⟨.c st, ?_, .inl ⟨_, _, st, rfl, booted⟩⟩
        rw [Program.Started, up.Neighbours]
        exact out.addresses_mapM port (fun j => readneighbour_endpoint (installed.endpoint j)) i
    | false =>
        refine ⟨.py _, ?_, .inr ⟨_, rfl, sound.boots_python installed ip member⟩⟩
        exact out.addresses_mapM port (fun j => Output.parse_toDigits installed.plain (port j + 1)) i
  choose program started runs using start
  exact ⟨⟨program, _, started, resolve⟩, installed, digits, fun _ => rfl, runs, home⟩

namespace Generator.Output

/-- All stations run the C program, and have been started as the script has it. -/
structure Scripted (out : Output n) (port : Fin n → ℕ) (ip : Text) (files : Text → Option Text) (N : Network (Fin n)) :
    Prop where
  installed : out.Installed port loopback files
  dotted : ∀ i, Dotted ip (port i + 1 : ℕ)
  argv : ∀ i, N.argv i = out.addresses port loopback i
  station : ∀ i, ∃ unset junk, Station.main files ip unset junk
    (Script.assignports.argv (out.start port loopback .assignports i)) = .ok (some (N.station i))
  near : ∀ i, N.resolve loopback (Nat.toDigits 10 (port i + 1)) = some i
  home : ∀ i, N.resolve ip (Nat.toDigits 10 (port i + 1)) = some i

variable {out : Output n} {port : Fin n → ℕ} {ip : Text} {files : Text → Option Text} {N : Network (Fin n)} {hours : Hours}

theorem Scripted.up (scripted : out.Scripted port ip files N) (sound : out.Sound hours) (i : Fin n) :
    ∃ timetable, out.Serves hours i timetable ∧ out.Up port ip loopback i timetable (N.station i) := by
  obtain ⟨timetable, member⟩ := sound.timetable i
  obtain ⟨unset, junk, booted⟩ := scripted.station i
  obtain ⟨st, booted', up⟩ := sound.boots scripted.installed ip unset junk member
  rw [booted, Except.ok.injEq, Option.some.injEq] at booted'
  exact ⟨timetable, sound.serves member, booted' ▸ up⟩

theorem Scripted.onLocalhost (scripted : out.Scripted port ip files N) (sound : out.Sound hours) : N.OnLocalhost where
  name i := by
    obtain ⟨_, _, up⟩ := scripted.up sound i
    rw [Network.name, up.station_name]
    exact ((out.station_plain i).mono (by decide)).token
  recorded i := by
    obtain ⟨_, _, up⟩ := scripted.up sound i
    have printed := (scripted.dotted i).printed
    rw [addressOf, printInt_natCast] at printed
    rw [Network.recorded, Station.recorded, up.local_ip, up.UDP_port]
    exact printed.toField.token breaks_space
  endpoint i := by
    obtain ⟨_, _, up⟩ := scripted.up sound i
    have endpoint := (scripted.dotted i).endpoint
    rw [printInt_natCast] at endpoint
    rwa [Network.ip, Network.port, up.local_ip, up.UDP_port]
  home i := by
    obtain ⟨_, _, up⟩ := scripted.up sound i
    rw [Network.ip, Network.port, up.local_ip, up.UDP_port]
    exact scripted.home i
  entries i e copied := by
    obtain ⟨timetable, serves, up⟩ := scripted.up sound i
    obtain ⟨b, inside, rfl⟩ := up.copied serves.some e copied
    obtain ⟨departs, arrives⟩ := serves.row_times inside
    exact ⟨departs.printed.toField.token breaks_space, ((route_plain i b).mono (by decide)).token,
      arrives.printed.toField.token breaks_space⟩
  started_on i arg given := by
    rw [scripted.argv i] at given
    obtain ⟨j, _, rfl⟩ := List.mem_map.mp given
    exact ⟨_, rfl⟩
  numeric i := by
    obtain ⟨_, _, up⟩ := scripted.up sound i
    rw [Network.ip, up.local_ip]
    rintro rfl
    have letter := (scripted.dotted i).plain 'l' (by decide)
    revert letter
    decide

theorem Scripted.nbrs (scripted : out.Scripted port ip files N) (sound : out.Sound hours) (i : Fin n) :
    N.nbrs i = out.neighbourhood i := by
  obtain ⟨_, _, up⟩ := scripted.up sound i
  have leads : ((fun m : NEIGHBOURS => N.resolve m.ip_addr m.udp_port) ∘ fun j =>
      (⟨loopback, Nat.toDigits 10 (port j + 1), loopback ++ ':' :: Nat.toDigits 10 (port j + 1)⟩ : NEIGHBOURS)) = some := by
    funext j
    exact scripted.near j
  rw [Network.nbrs, up.Neighbours, List.filterMap_map, leads, List.filterMap_some]

end Generator.Output

/-- As the scripts start it, on one host and with the C program, a network that has been generated never
comes to rest again once a station has been asked that has another neighbour than the one asked for: the
run can always go on until a station is sent more than its buffer holds. -/
theorem scripted_network_never_settles [NeZero n] {hours : Hours} {lflag : Bool} {rand : ℕ → ℕ} {passes : ℕ}
    {out : Output n} (ran : main hours lflag rand passes = some out) {port : Fin n → ℕ} {ip : Text}
    {files : Text → Option Text} {N : Network (Fin n)} (scripted : out.Scripted port ip files N)
    {qs : List (Query (Fin n))} {q : Query (Fin n)} (member : q ∈ qs) (now : Token ';' 5 q.start_time) {j y : Fin n}
    (asks : q.destination = out.station j) (away : j ≠ q.source) (linked : out.adj q.source y = true) (other : y ≠ j)
    {s : Pool Datagram (Fin n × PAYLOAD)} (run : Runs N.react (launch (qs.map N.init)) s) :
    s.flying ≠ 0 ∧ ∃ t, Runs N.react s t ∧ ∃ f ∈ t.flying,
      (∃ x, N.resolve f.msg.ip f.msg.port = some x) ∧ MAXDATASIZE ≤ f.msg.text.length := by
  have sound := main_sound ran
  have injective := out.station_injective sound.few
  have names : N.name = out.station := by
    funext i
    obtain ⟨_, _, up⟩ := scripted.up sound i
    exact up.station_name
  have asked : N.Asked q := by
    refine ⟨?_, now, ?_⟩
    · rw [asks]
      exact ((out.station_plain j).mono (by decide)).token
    · rw [asks, names]
      exact fun same => away (injective same)
  have detour : N.Detour q y := by
    refine ⟨?_, ?_, ?_⟩
    · rw [scripted.nbrs sound, Output.neighbourhood, List.mem_filter]
      exact ⟨List.mem_finRange y, linked⟩
    · rw [scripted.nbrs sound, Output.neighbourhood, List.mem_filter]
      exact ⟨List.mem_finRange _, sound.undirected.both _ _ linked⟩
    · rw [names, asks]
      exact fun same => other (injective same)
  exact (scripted.onLocalhost sound).never_rests member asked detour run

theorem Generator.Output.Sound.scripted {out : Output n} {port : Fin n → ℕ} {ip : Text} {files : Text → Option Text}
    {hours : Hours} (sound : out.Sound hours) (installed : out.Installed port loopback files)
    (dotted : ∀ i, Dotted ip (port i + 1 : ℕ)) (resolve : Text → Text → Option (Fin n))
    (leads : ∀ host i, resolve host (Nat.toDigits 10 (port i + 1)) = some i) :
    ∃ N : Network (Fin n), out.Scripted port ip files N := by
  have start : ∀ i, ∃ st, Station.main files ip (fun _ => 0) ⟨[], [], [], [], []⟩
      (Script.assignports.argv (out.start port loopback .assignports i)) = .ok (some st) ∧
      readneighbours (out.addresses port loopback i) = .ok st.Neighbours := by
    intro i
    obtain ⟨timetable, member⟩ := sound.timetable i
    obtain ⟨st, booted, up⟩ := sound.boots installed ip (fun _ => 0) ⟨[], [], [], [], []⟩ member
    refine ⟨st, booted, ?_⟩
    rw [up.Neighbours]
    exact out.addresses_mapM port (fun j => readneighbour_endpoint (installed.endpoint j)) i
  choose station booted started using start
  exact ⟨⟨station, _, started, resolve⟩, installed, dotted, fun _ => rfl, fun i => ⟨_, _, booted i⟩, leads _, leads _⟩

set_option maxRecDepth 10000 in
theorem coins_line : ∃ out : Output 3, main fromSix true coins 200 = some out ∧ out.adj 0 1 = true := by
  have first : ((main fromSix true coins 200 : Option (Output 3)).map fun out => out.adj 0 1) = some true := by
    decide +kernel
  obtain ⟨out, ran, linked⟩ := Option.map_eq_some_iff.mp first
  exact ⟨out, ran, linked⟩

/-- Three stations on a line, and the first is asked for the last. -/
theorem coins_never_settle : ∃ out : Output 3, main fromSix true coins 200 = some out ∧ ∃ N,
    out.Scripted (4001 + 2 * ·.val) "127.0.0.1".toList out.disk N ∧ ∃ t,
      Runs N.react (launch ([⟨out.station 2, 0, "08:00".toList⟩].map N.init)) t ∧ ∃ f ∈ t.flying,
        (∃ x, N.resolve f.msg.ip f.msg.port = some x) ∧ MAXDATASIZE ≤ f.msg.text.length := by
  obtain ⟨out, ran, linked⟩ := coins_line
  have sound := main_sound ran
  have installed : out.Installed (4001 + 2 * ·.val) loopback out.disk :=
    sound.installed (by decide) (by decide) (by decide) (by decide) (by decide)
  have dotted : ∀ i : Fin 3, Dotted "127.0.0.1".toList (4001 + 2 * i.val + 1 : ℕ) := fun i =>
    local_dotted (by have := i.isLt; omega)
  obtain ⟨N, scripted⟩ := sound.scripted installed dotted
    (fun _ port => if port = "4002".toList then some 0 else if port = "4004".toList then some 1 else some 2)
    (fun _ => by decide)
  have now : Token ';' 5 "08:00".toList := by decide
  have away : (2 : Fin 3) ≠ 0 := by decide
  exact ⟨out, ran, N, scripted, (scripted_network_never_settles ran scripted (List.mem_singleton_self _) now rfl
    away linked (by decide) .refl).2⟩

end TransitNet
