import TransitNet.Interop
import TransitNet.Leaving
import TransitNet.Scripts

/-! How either program starts: the arguments that a line of the start script gives to it, and the files
that it reads before it opens its sockets. -/
namespace TransitNet
open Words Utf8 Generator

variable {n : ℕ}

/-- What `main` has read when it opens its sockets, and `none` where it exits with its usage. The sockets
themselves are left out: a station whose ports are taken gets no further. Without its file a station is
left with a null pointer for a timetable. -/
def Station.main (files : Text → Option Text) (local_ip : Text) (unset : Text → ℤ) (junk : TIMETABLE) :
    List Text → Except Fault (Option Station)
  | _ :: station_name :: TCP_port :: UDP_port :: neighbour :: neighbours => do
      let timetable_file ← strcpy 70 (some ("files/tt-".toList ++ station_name))
      let _ ← strcpy MAX_PORT (some TCP_port)
      let UDP_port ← strcpy MAX_PORT (some UDP_port)
      let l ← readtimetable junk ((files timetable_file).map encode) ⟨[], [], []⟩ []
      let Neighbours ← readneighbours (neighbour :: neighbours)
      if spare : l.count < l.Timetable.length then
        return some { station_name := l.Station.station_name, local_ip, UDP_port, Timetable := l.Timetable,
                      NUM_TIMETABLES := l.count, spare, Neighbours, unset }
      else .error .null
  | _ => .ok none

/-- The same of the Python station, up to `run_server`: `none` wherever the program ends. -/
def PyStation.main (files : Text → Option Text) (local_ip : Text) : List Text → Option PyStation
  | _ :: STATION_NAME :: tcp_port :: udp_port :: neighbours =>
      match pyInt tcp_port, pyInt udp_port, neighbours.mapM PyNeighbours.parse, files ("files/tt-".toList ++ STATION_NAME) with
      | .ok _, .ok udp_port, .ok neighbours, some file =>
          some ⟨STATION_NAME, local_ip, udp_port, load_timetable (some file), neighbours⟩
      | _, _, _, _ => none
  | _ => none

/-- The arguments of the program that a line puts into the background. Python takes two words for itself. -/
def Script.argv (script : Script) (line : Text) : List Text :=
  (split (· = ' ') line).dropLast.drop (match script with
    | assignports => 0
    | pyports => 2)

namespace Generator.Output
variable (out : Output n) (port : Fin n → ℕ) {host : Text}

theorem argv_start (script : Script) (whole : ' ' ∉ host) (i : Fin n) : ∃ server,
    script.argv (out.start port host script i) = server :: out.station i :: Nat.toDigits 10 (port i) ::
      Nat.toDigits 10 (port i + 1) :: out.addresses port host i := by
  have digits : ∀ k, Word (· = ' ') (Nat.toDigits 10 k) := fun k =>
    ⟨Nat.toDigits_ne_nil, fun c member => decide_eq_false fun blank => digits_clean (by decide) (blank ▸ member)⟩
  have addresses : ∀ w ∈ out.addresses port host i, Word (· = ' ') w := by
    intro w member
    obtain ⟨j, _, rfl⟩ := List.mem_map.mp member
    refine ⟨List.append_ne_nil_of_right_ne_nil _ (List.cons_ne_nil _ _), fun c inside => decide_eq_false ?_⟩
    rintro rfl
    rcases List.mem_append.mp inside with front | back
    · exact whole front
    · rcases List.mem_cons.mp back with colon | digit
      · exact absurd colon (by decide)
      · exact digits_clean (by decide) digit
  have words : ∀ w ∈ out.station i :: Nat.toDigits 10 (port i) :: Nat.toDigits 10 (port i + 1) ::
      out.addresses port host i ++ ["&".toList], Word (· = ' ') w := by
    intro w member
    rcases List.mem_append.mp member with inside | last
    · rcases List.mem_cons.mp inside with rfl | inside
      · exact out.station_word i
      · rcases List.mem_cons.mp inside with rfl | inside
        · exact digits _
        · rcases List.mem_cons.mp inside with rfl | inside
          · exact digits _
          · exact addresses w inside
    · rw [List.mem_singleton.mp last]
      decide
  have cut : ∀ w ws, script.MYSERVER = w ++ spaced ' ' ws → (∀ u ∈ w :: ws, Word (· = ' ') u) →
      (split (· = ' ') (out.start port host script i)).dropLast = w :: ws ++ out.station i :: Nat.toDigits 10 (port i) ::
        Nat.toDigits 10 (port i + 1) :: out.addresses port host i := by
    intro w ws same front
    have clean : ∀ u ∈ w :: (ws ++ (out.station i :: Nat.toDigits 10 (port i) :: Nat.toDigits 10 (port i + 1) ::
        out.addresses port host i ++ ["&".toList])), Word (· = ' ') u := by
      intro u member
      rw [← List.cons_append] at member
      exact (List.mem_append.mp member).elim (front u) (words u)
    have blank : split (· = ' ') (out.start port host script i) = split (· = ' ') (' ' :: out.start port host script i) :=
      (split_sep rfl _).symm
    rw [blank, start, same, List.append_assoc, ← spaced_append, ← spaced_cons, split_spaced rfl clean,
      ← List.cons_append, ← List.append_assoc, List.dropLast_concat]
  cases script with
  | assignports => exact ⟨_, cut "./station-server".toList [] rfl (by decide)⟩
  | pyports => exact ⟨_, congrArg (List.drop 2) (cut "python3".toList ["-m".toList, "server".toList] rfl (by decide))⟩

/-- Reading the addresses one by one. -/
theorem addresses_mapM {ε β : Type} {f : Text → Except ε β} {g : Fin n → β}
    (reads : ∀ j, f (host ++ ':' :: Nat.toDigits 10 (port j + 1)) = .ok (g j)) (i : Fin n) :
    (out.addresses port host i).mapM f = .ok ((out.neighbourhood i).map g) := by
  have each : (f ∘ fun j => host ++ ':' :: Nat.toDigits 10 (port j + 1)) = fun j => pure (g j) := by
    funext j
    exact reads j
  rw [addresses, List.mapM_map, each, List.mapM_pure]
  rfl

/-- The files are where the stations look for them, and what they are told is hosts and ports. -/
structure Installed (host : Text) (files : Text → Option Text) : Prop where
  nonempty : host ≠ []
  short : host.length ≤ 45
  plain : ':' ∉ host
  whole : ' ' ∉ host
  ports : ∀ i, port i + 1 < 65536
  stored : ∀ e ∈ out.timetables, files ("files/".toList ++ (out.file e.1 e.2).1) = some (out.file e.1 e.2).2

/-- What either program has of the file of its timetable. -/
structure Up (ip host : Text) (i : Fin n) (timetable : List (Bus n)) (st : Station) : Prop where
  station_name : st.station_name = out.station i
  local_ip : st.local_ip = ip
  UDP_port : st.UDP_port = Nat.toDigits 10 (port i + 1)
  Neighbours : st.Neighbours = (out.neighbourhood i).map fun j =>
    ⟨host, Nat.toDigits 10 (port j + 1), host ++ ':' :: Nat.toDigits 10 (port j + 1)⟩
  count : st.NUM_TIMETABLES = timetable.length
  filled : st.Timetable.take timetable.length = timetable.map (out.row i)

variable {out port} {files : Text → Option Text}

theorem digits_short {k : ℕ} (small : k < 65536) : (Nat.toDigits 10 k).length ≤ 5 :=
  (Nat.length_toDigits_le_iff (by decide) (by decide)).mpr (by omega)

theorem Installed.endpoint (installed : out.Installed port host files) (j : Fin n) :
    Endpoint host (Nat.toDigits 10 (port j + 1)) where
  ip_nonempty := installed.nonempty
  ip_short := installed.short
  ip_plain := installed.plain
  port_nonempty := Nat.toDigits_ne_nil
  port_short := (digits_short (installed.ports j)).trans (by decide)
  port_plain c member := (unbroken (digit_unbroken (toDigits_digit member))).2.1

theorem Installed.file (installed : out.Installed port host files) {i : Fin n} {timetable : List (Bus n)}
    (member : (i, timetable) ∈ out.timetables) :
    files ("files/tt-".toList ++ out.station i) = some (out.file i timetable).2 := by
  have stored := installed.stored _ member
  have front : "files/tt-".toList = "files/".toList ++ "tt-".toList := by decide
  rwa [front, List.append_assoc]

/-- Whatever a C station has been told, it comes up, with all that has been printed for it. -/
theorem Sound.boots {hours : Hours} (sound : out.Sound hours) (installed : out.Installed port host files)
    (ip : Text) (unset : Text → ℤ) (junk : TIMETABLE) {i : Fin n} {timetable : List (Bus n)}
    (member : (i, timetable) ∈ out.timetables) : ∃ st, Station.main files ip unset junk
      (Script.assignports.argv (out.start port host .assignports i)) = .ok (some st) ∧
      out.Up port ip host i timetable st := by
  obtain ⟨server, argv⟩ := out.argv_start port .assignports installed.whole i
  obtain ⟨l, read, station, count, spare, filled⟩ := sound.read member junk ⟨[], [], []⟩ []
  have neighbours := out.addresses_mapM port (fun j => readneighbour_endpoint (installed.endpoint j)) i
  have name : strcpy 70 (some ("files/tt-".toList ++ out.station i)) = .ok ("files/tt-".toList ++ out.station i) := by
    have short := (out.station_plain i).short
    have front : "files/tt-".toList.length = 9 := by decide
    exact if_pos (by rw [List.length_append, front]; omega)
  have tcp : strcpy MAX_PORT (some (Nat.toDigits 10 (port i))) = .ok (Nat.toDigits 10 (port i)) :=
    if_pos (Nat.lt_succ_of_le ((digits_short (Nat.lt_of_succ_lt (installed.ports i))).trans (by decide)))
  have udp : strcpy MAX_PORT (some (Nat.toDigits 10 (port i + 1))) = .ok (Nat.toDigits 10 (port i + 1)) :=
    if_pos (Nat.lt_succ_of_le ((digits_short (installed.ports i)).trans (by decide)))
  obtain ⟨a, as, some⟩ : ∃ a as, out.addresses port host i = a :: as :=
    List.exists_cons_of_ne_nil fun none => sound.lively i (List.map_eq_nil_iff.mp none)
  rw [argv, some, Station.main]
  rw [some] at neighbours
  simp only [name, tcp, udp, installed.file member, Option.map_some, read, readneighbours, neighbours, bind, Except.bind,
    dif_pos spare, pure, Except.pure]
  refine ⟨_, rfl, ?_, rfl, rfl, rfl, count, ?_⟩
  · exact congrArg STATION.station_name station
  · rw [← count]
    exact filled

theorem pyInt_toDigits (k : ℕ) : pyInt (Nat.toDigits 10 k) = .ok (k : ℤ) := by
  rw [pyInt_digits Nat.toDigits_ne_nil fun c => toDigits_digit, Nat.ofDigitChars_ten_toDigits]

theorem parse_toDigits (plain : ':' ∉ host) (k : ℕ) :
    PyNeighbours.parse (host ++ ':' :: Nat.toDigits 10 k) = .ok ⟨host, k⟩ := by
  have parts : (host ++ ':' :: Nat.toDigits 10 k).splitOn ':' = [host, Nat.toDigits 10 k] := by
    rw [List.splitOn_append_cons_self_of_not_mem plain, List.splitOn_eq_singleton (digits_clean (by decide))]
  simp only [PyNeighbours.parse, parts, pyInt_toDigits, bind, Except.bind, pure, Except.pure]

/-- The Python station comes up too. -/
theorem Sound.boots_python {hours : Hours} (sound : out.Sound hours) (installed : out.Installed port host files)
    (ip : Text) {i : Fin n} {timetable : List (Bus n)} (member : (i, timetable) ∈ out.timetables) :
    PyStation.main files ip (Script.pyports.argv (out.start port host .pyports i)) = some
      ⟨out.station i, ip, port i + 1, (out.heading i).columns :: timetable.map fun b => (out.row i b).columns,
        (out.neighbourhood i).map fun j => ⟨host, port j + 1⟩⟩ := by
  obtain ⟨server, argv⟩ := out.argv_start port .pyports installed.whole i
  have neighbours := out.addresses_mapM port (fun j => parse_toDigits installed.plain (port j + 1)) i
  rw [argv, PyStation.main]
  simp only [pyInt_toDigits, neighbours, installed.file member, sound.load member]
  push_cast
  rfl

/-! ### What the stations ride by -/

section Schedule
variable {hours : Hours} {i : Fin n} {timetable : List (Bus n)}

theorem Serves.row_times (serves : out.Serves hours i timetable) {b : Bus n} (member : b ∈ timetable) :
    HHMM (out.row i b).departure_time ∧ HHMM (out.row i b).arrival_time := by
  obtain ⟨_, leaves, arrives⟩ := serves.clocked b member
  exact ⟨⟨_, _, by omega, by omega, rfl⟩, ⟨_, _, by omega, by omega, rfl⟩⟩

theorem clock_minutes (unset : Text → ℤ) {m : ℕ} (day : m < 1440) : timeToMinutes unset (clock (m / 60) (m % 60)) = m := by
  rw [timeToMinutes_clock unset (by omega) (by omega)]
  omega

/-- No bus overtakes another to the same station. -/
theorem Serves.rows_ordered (serves : out.Serves hours i timetable) (few : n ≤ MAX_NODES) (unset : Text → ℤ)
    {b c : Bus n} (hb : b ∈ timetable) (hc : c ∈ timetable)
    (same : (out.row i b).arrival_station = (out.row i c).arrival_station)
    (before : timeToMinutes unset (out.row i b).departure_time < timeToMinutes unset (out.row i c).departure_time) :
    timeToMinutes unset (out.row i b).arrival_time ≤ timeToMinutes unset (out.row i c).arrival_time := by
  obtain ⟨_, leaves, arrives⟩ := serves.clocked b hb
  obtain ⟨_, leaves', arrives'⟩ := serves.clocked c hc
  have goal : b.j = c.j := out.station_injective few same
  have apart : ∀ b ∈ timetable, ∀ c ∈ timetable, b.departs < c.departs → b.j = c.j → b.arrives < c.arrives := by
    refine List.Pairwise.forall_of_forall_of_flip (fun b _ late => absurd late (Nat.lt_irrefl _))
      (serves.ordered.imp fun both _ => both.2) (serves.ordered.imp fun both late => ?_)
    exact absurd late (Nat.lt_asymm both.1)
  simp only [row] at before ⊢
  rw [clock_minutes unset (by omega), clock_minutes unset (by omega)] at before
  rw [clock_minutes unset (by omega), clock_minutes unset (by omega)]
  have first := apart b hb c hc (by omega) goal
  omega

theorem Up.entry (up : out.Up port ip host i timetable st) : ∀ e ∈ st.entries,
    ∃ b ∈ timetable, e = out.row i b := by
  intro e member
  have within : e ∈ st.Timetable.take timetable.length := by
    rw [Station.entries, up.count] at member
    exact (List.take_subset_take_left _ (Nat.sub_le _ 1)) member
  rw [up.filled] at within
  obtain ⟨b, inside, same⟩ := List.mem_map.mp within
  exact ⟨b, inside, same.symm⟩

/-- There is a first slot, and a bus in it. -/
theorem Up.copied (up : out.Up port ip host i timetable st) (some : timetable ≠ []) :
    ∀ e ∈ st.copied, ∃ b ∈ timetable, e = out.row i b := by
  intro e member
  rcases List.mem_cons.mp member with rfl | later
  · obtain ⟨b, bs, rfl⟩ := List.exists_cons_of_ne_nil some
    have filled := up.filled
    have first := congrArg List.head? filled
    rw [List.length_cons, List.head?_take, if_neg (Nat.succ_ne_zero _), List.map_cons, List.head?_cons] at first
    have slot : st.Timetable.head? = .some st.firstSlot := List.head?_eq_some_head _
    exact ⟨b, List.mem_cons_self, Option.some.inj (slot.symm.trans first)⟩
  · exact up.entry e later

end Schedule
end Generator.Output

namespace Generator
variable {out : Output n} {port : Fin n → ℕ} {host : Text} {files : Text → Option Text}

/-- Each line of a start script brings its station up, whichever program it is for and on whatever host the
neighbours are: under its name, with its neighbours, and with all the buses that have been drawn for it.
None of these overtakes another. -/
theorem every_station_comes_up [NeZero n] {hours : Hours} {lflag : Bool} {rand : ℕ → ℕ} {passes : ℕ}
    (ran : main hours lflag rand passes = some out) (installed : out.Installed port host files) (ip : Text)
    (unset : Text → ℤ) (junk : TIMETABLE) (i : Fin n) : ∃ timetable, (i, timetable) ∈ out.timetables ∧
      (∃ st, Station.main files ip unset junk (Script.assignports.argv (out.start port host .assignports i)) = .ok (some st) ∧
        out.Up port ip host i timetable st ∧ st.TimesOfDay ∧ st.NonOvertaking) ∧
      PyStation.main files ip (Script.pyports.argv (out.start port host .pyports i)) = some
        ⟨out.station i, ip, port i + 1, (out.heading i).columns :: timetable.map fun b => (out.row i b).columns,
          (out.neighbourhood i).map fun j => ⟨host, port j + 1⟩⟩ := by
  have sound := main_sound ran
  obtain ⟨timetable, member⟩ := sound.timetable i
  have serves := sound.serves member
  obtain ⟨st, booted, up⟩ := sound.boots installed ip unset junk member
  refine ⟨timetable, member, ⟨st, booted, up, fun e listed => ?_, fun e listed e' listed' same before => ?_⟩,
    sound.boots_python installed ip member⟩
  · obtain ⟨b, inside, rfl⟩ := up.entry e listed
    exact serves.row_times inside
  · obtain ⟨b, inside, rfl⟩ := up.entry e listed
    obtain ⟨c, inside', rfl⟩ := up.entry e' listed'
    exact serves.rows_ordered sound.few st.unset inside inside' same before

/-- The directory that the generator has been run in, seen from the one above it. -/
def Output.disk (out : Output n) (name : Text) : Option Text :=
  (out.timetables.find? fun e => decide ("files/".toList ++ (out.file e.1 e.2).1 = name)).map fun e => (out.file e.1 e.2).2

theorem Output.Sound.disk {hours : Hours} (sound : out.Sound hours) : ∀ e ∈ out.timetables,
    out.disk ("files/".toList ++ (out.file e.1 e.2).1) = some (out.file e.1 e.2).2 := by
  intro e member
  obtain ⟨e', found⟩ : ∃ e', out.timetables.find? (fun e' => decide ("files/".toList ++ (out.file e'.1 e'.2).1 =
      "files/".toList ++ (out.file e.1 e.2).1)) = some e' :=
    Option.isSome_iff_exists.mp (List.find?_isSome.mpr ⟨e, member, decide_eq_true rfl⟩)
  have hit := List.find?_some found
  rw [decide_eq_true_eq] at hit
  have same := List.append_cancel_left (List.append_cancel_left hit)
  have first : e'.1 = e.1 := out.station_injective sound.few same
  have second : e'.2 = e.2 := sound.single member (first ▸ List.mem_of_find?_eq_some found)
  rw [Output.disk, found, Option.map_some, first, second]

theorem Output.Sound.installed {hours : Hours} (sound : out.Sound hours) (ports : ∀ i, port i + 1 < 65536)
    (nonempty : host ≠ []) (short : host.length ≤ 45) (plain : ':' ∉ host) (whole : ' ' ∉ host) :
    out.Installed port host out.disk := ⟨nonempty, short, plain, whole, ports, sound.disk⟩

/-- The first of two stations comes up on a host of its own address, in either program. -/
theorem coins_come_up : ∃ out : Output 2, main fromSix false coins 200 = some out ∧ ∃ timetable,
    (0, timetable) ∈ out.timetables ∧
      (∃ st, Station.main out.disk "172.24.118.122".toList (fun _ => 0) ⟨[], [], [], [], []⟩
          (Script.assignports.argv (out.start (4001 + 2 * ·.val) loopback .assignports 0)) = .ok (some st) ∧
        out.Up (4001 + 2 * ·.val) "172.24.118.122".toList loopback 0 timetable st ∧ st.TimesOfDay ∧ st.NonOvertaking) ∧
      PyStation.main out.disk "172.24.118.122".toList
          (Script.pyports.argv (out.start (4001 + 2 * ·.val) loopback .pyports 0)) =
        some ⟨out.station 0, "172.24.118.122".toList, 4002,
          (out.heading 0).columns :: timetable.map fun b => (out.row 0 b).columns,
          (out.neighbourhood 0).map fun j => ⟨loopback, (4001 + 2 * j.val : ℕ) + 1⟩⟩ := by
  obtain ⟨out, ran⟩ := coins_run
  have installed : out.Installed (4001 + 2 * ·.val) loopback out.disk :=
    (main_sound ran).installed (by decide) (by decide) (by decide) (by decide) (by decide)
  exact ⟨out, ran, every_station_comes_up ran installed "172.24.118.122".toList (fun _ => 0) ⟨[], [], [], [], []⟩ 0⟩

end Generator
end TransitNet
