import TransitNet.Loaders

/-! Timetable files that change while a station is up. Either station looks at the modification time
in every turn of its main loop. -/
namespace TransitNet
open Utf8

/-- A timetable file in the documented format, measured in bytes. -/
structure TimetableFile where
  lines : List Text
  station : STATION
  entries : List TIMETABLE
  ended : Bool
  mtime : ℤ
  listed : TimetableLines byteSize lines station entries
  short : ∀ line ∈ lines, byteSize line ≤ 254
  lone : ∀ line ∈ lines, '\n' ∉ line ∧ '\r' ∉ line
  clean : ∀ line ∈ lines, Clean line
  few : entries.length < 2 ^ 30

namespace TimetableFile

def text (f : TimetableFile) : Text := fileOf f.lines f.ended

theorem read (f : TimetableFile) (junk : TIMETABLE) (old : STATION) (before : List TIMETABLE) :
    ∃ l, readtimetable junk (some (encode f.text)) old before = .ok l ∧ l.count = f.entries.length ∧
      l.Timetable.take l.count = f.entries.map TIMETABLE.encoded := by
  have newline := fun line member => (f.lone line member).1
  obtain ⟨l, ran, _, count, _, filled⟩ := readtimetable_listed junk old before f.listed f.short newline f.clean f.few f.ended
  exact ⟨l, ran, count, filled⟩

end TimetableFile

/-! ### The C station -/

/-- The globals of a C station that its timetable is in, and `latest_time` of `main`. The file on the
disk is not the station's, and which file the table holds is history that the code does not read. -/
structure Watch where
  Station : STATION
  Timetable : List TIMETABLE
  NUM_TIMETABLES : ℕ
  latest_time : ℤ
  file : TimetableFile
  held : TimetableFile

namespace Watch

/-- Where `main` starts. -/
def load (junk : TIMETABLE) (file : TimetableFile) : Except Fault Watch := do
  let l ← readtimetable junk (some (encode file.text)) ⟨[], [], []⟩ []
  return { Station := l.Station, Timetable := l.Timetable, NUM_TIMETABLES := l.count
           latest_time := file.mtime, file, held := file }

/-- The count that `readtimetable` returns is dropped, and `latest_time` is only a copy. -/
def check_update_timetable (junk : TIMETABLE) (w : Watch) : Except Fault Watch :=
  if w.file.mtime - w.latest_time > 0 then do
    let l ← readtimetable junk (some (encode w.file.text)) w.Station w.Timetable
    return { w with Station := l.Station, Timetable := l.Timetable, held := w.file }
  else .ok w

/-- The count is that of the entries which the table holds. Below it stand the entries of the file as it
is now and nothing else, and a search looks at nothing else. -/
structure Consistent (w : Watch) : Prop where
  count : w.NUM_TIMETABLES = w.held.entries.length
  entries : w.Timetable.take w.NUM_TIMETABLES = w.file.entries.map TIMETABLE.encoded
  search : ∀ unset starting_time station_to_go,
    search_timetable unset w.Timetable w.NUM_TIMETABLES starting_time station_to_go =
      search_timetable unset (w.file.entries.map TIMETABLE.encoded) w.file.entries.length starting_time station_to_go

end Watch

/-- What a C station has been through: each state that a check has left, and where it is now. -/
inductive Watches (junk : TIMETABLE) (first : TimetableFile) : List Watch → Watch → Prop
  | start {w : Watch} : Watch.load junk first = .ok w → Watches junk first [] w
  | modified {checks : List Watch} {w : Watch} (file : TimetableFile) :
      Watches junk first checks w → Watches junk first checks { w with file }
  | turn {checks : List Watch} {w w' : Watch} : Watches junk first checks w →
      w.check_update_timetable junk = .ok w' → Watches junk first (checks ++ [w']) w'

/-- The last of the files that is newer than the first one, which it is itself if none is. -/
def lastNewer (first : TimetableFile) (files : List TimetableFile) : TimetableFile :=
  ((files.filter fun file => first.mtime < file.mtime).getLast?).getD first

theorem lastNewer_concat (first : TimetableFile) (files : List TimetableFile) (file : TimetableFile) :
    lastNewer first (files ++ [file]) = if first.mtime < file.mtime then file else lastNewer first files := by
  unfold lastNewer
  rw [List.filter_append]
  split
  · rename_i newer
    have kept : [file].filter (fun file => decide (first.mtime < file.mtime)) = [file] := by simp [newer]
    rw [kept, List.getLast?_concat, Option.getD_some]
  · rename_i older
    have dropped : [file].filter (fun file => decide (first.mtime < file.mtime)) = [] := by simp [older]
    rw [dropped, List.append_nil]

/-- The bytes of an entry tell its texts. -/
theorem encoded_injective : Function.Injective TIMETABLE.encoded := by
  rintro ⟨a₁, a₂, a₃, a₄, a₅⟩ ⟨b₁, b₂, b₃, b₄, b₅⟩ same
  simp only [TIMETABLE.encoded, TIMETABLE.mk.injEq] at same
  obtain ⟨h₁, h₂, h₃, h₄, h₅⟩ := same
  rw [encode_injective h₁, encode_injective h₂, encode_injective h₃, encode_injective h₄, encode_injective h₅]

/-- The search looks at no index from the count on. -/
theorem search_timetable_take (unset : Text → ℤ) (timetable : List TIMETABLE) (n : ℕ) (starting_time station_to_go : Text) :
    search_timetable unset (timetable.take n) n starting_time station_to_go =
      search_timetable unset timetable n starting_time station_to_go := by
  rw [search_timetable, search_timetable, List.take_take, Nat.min_eq_left (Nat.sub_le n 1)]

namespace Watch
variable {junk : TIMETABLE} {first : TimetableFile}

/-- What no turn changes, and what the table holds. -/
structure Since (first : TimetableFile) (w : Watch) : Prop where
  count : w.NUM_TIMETABLES = first.entries.length
  latest_time : w.latest_time = first.mtime
  filled : w.Timetable.take w.held.entries.length = w.held.entries.map TIMETABLE.encoded

theorem load_ok (junk : TIMETABLE) (first : TimetableFile) : ∃ w, Watch.load junk first = .ok w := by
  obtain ⟨l, read, _⟩ := first.read junk ⟨[], [], []⟩ []
  refine ⟨⟨l.Station, l.Timetable, l.count, first.mtime, first, first⟩, ?_⟩
  unfold Watch.load
  rw [read]
  rfl

theorem load_since {w : Watch} (ran : Watch.load junk first = .ok w) : w.Since first ∧ w.held = first := by
  obtain ⟨l, read, count, filled⟩ := first.read junk ⟨[], [], []⟩ []
  unfold Watch.load at ran
  simp only [read, bind, Except.bind, pure, Except.pure, Except.ok.injEq] at ran
  subst ran
  exact ⟨⟨count, rfl, count ▸ filled⟩, rfl⟩

/-- A check loads the file that is newer than the first one was, and counts nothing. -/
theorem check_since (junk : TIMETABLE) {w : Watch} (since : w.Since first) :
    ∃ w', w.check_update_timetable junk = .ok w' ∧ w'.Since first ∧ w'.file = w.file ∧
      w'.held = if first.mtime < w.file.mtime then w.file else w.held := by
  have latest := since.latest_time
  unfold Watch.check_update_timetable
  by_cases newer : first.mtime < w.file.mtime
  · obtain ⟨l, read, count, filled⟩ := w.file.read junk w.Station w.Timetable
    refine ⟨{ w with Station := l.Station, Timetable := l.Timetable, held := w.file }, ?_, ?_, rfl, ?_⟩
    · rw [if_pos (by omega), read]
      rfl
    · exact ⟨since.count, since.latest_time, count ▸ filled⟩
    · rw [if_pos newer]
  · refine ⟨w, ?_, since, rfl, ?_⟩
    · rw [if_neg (by omega)]
    · rw [if_neg newer]

end Watch

section Runs
variable {junk : TIMETABLE} {first : TimetableFile} {checks : List Watch} {w : Watch}

theorem Watches.since (run : Watches junk first checks w) : w.Since first ∧ ∀ c ∈ checks, c.Since first := by
  induction run with
  | start ran => exact ⟨(Watch.load_since ran).1, fun c member => absurd member List.not_mem_nil⟩
  | modified file _ ih => exact ⟨⟨ih.1.count, ih.1.latest_time, ih.1.filled⟩, ih.2⟩
  | turn _ ran ih =>
      obtain ⟨w', ran', since, _⟩ := Watch.check_since junk ih.1
      rw [ran, Except.ok.injEq] at ran'
      subst ran'
      refine ⟨since, fun c member => ?_⟩
      rcases List.mem_append.mp member with earlier | last
      · exact ih.2 c earlier
      · exact List.mem_singleton.mp last ▸ since

/-- No check fails. -/
theorem Watches.goes_on (run : Watches junk first checks w) :
    ∃ w', Watches junk first (checks ++ [w']) w' ∧ w'.file = w.file := by
  obtain ⟨w', ran, _, same, _⟩ := Watch.check_since junk run.since.1
  exact ⟨w', run.turn ran, same⟩

/-- The table holds the last file that a check has found newer than the first. -/
theorem Watches.held (run : Watches junk first checks w) : w.held = lastNewer first (checks.map Watch.file) ∧
    ∀ earlier c, earlier ++ [c] <+: checks → c.held = lastNewer first ((earlier ++ [c]).map Watch.file) := by
  induction run with
  | start ran => exact ⟨(Watch.load_since ran).2, fun earlier c before => absurd before (by simp)⟩
  | modified file _ ih => exact ih
  | @turn checks w w' run ran ih =>
      have now : w'.held = lastNewer first ((checks ++ [w']).map Watch.file) := by
        obtain ⟨w'', ran', _, file, held⟩ := Watch.check_since junk run.since.1
        rw [ran, Except.ok.injEq] at ran'
        subst ran'
        rw [held, List.map_append, List.map_singleton, lastNewer_concat, file, ih.1]
      refine ⟨now, fun earlier c before => ?_⟩
      rcases List.prefix_concat_iff.mp before with last | old
      · obtain ⟨rfl, same⟩ := List.append_inj' last rfl
        rw [List.singleton_inj.mp same]
        exact now
      · exact ih.2 earlier c old

/-- The station searches the current file after every check if and only if each check finds as many
entries as the first file had, and those of the file that is loaded by then. -/
theorem reloaded_table_is_consistent_iff (run : Watches junk first checks w) :
    (∀ c ∈ checks, c.Consistent) ↔ ∀ earlier c, earlier ++ [c] <+: checks →
      c.file.entries.length = first.entries.length ∧
        c.file.entries = (lastNewer first ((earlier ++ [c]).map Watch.file)).entries := by
  have since := run.since.2
  have loaded := run.held.2
  constructor
  · intro consistent earlier c before
    have member : c ∈ checks := before.subset (List.mem_append_right _ List.mem_cons_self)
    obtain ⟨count, entries, _⟩ := consistent c member
    rw [count, (since c member).filled] at entries
    have same := (List.map_injective_iff.mpr encoded_injective) entries
    rw [← loaded earlier c before, ← same, ← count]
    exact ⟨(since c member).count, rfl⟩
  · intro same c member
    obtain ⟨earlier, later, rfl⟩ := List.append_of_mem member
    have before : earlier ++ [c] <+: earlier ++ c :: later := ⟨later, by rw [List.append_assoc]; rfl⟩
    obtain ⟨many, current⟩ := same earlier c before
    rw [← loaded earlier c before] at current
    have count := (since c member).count
    have entries := (since c member).filled
    rw [← current, many, ← count] at entries
    refine ⟨by rw [count, ← many, current], entries, fun unset starting_time station_to_go => ?_⟩
    rw [← entries, many, ← count, search_timetable_take]

end Runs

/-- A file with the same bus so many times. -/
def buses (n : ℕ) (few : n < 2 ^ 30) (mtime : ℤ) : TimetableFile where
  lines := busLines n
  station := stationS
  entries := List.replicate n (onRoute ['b'])
  ended := true
  mtime := mtime
  listed := busLines_listed n
  short line member := by
    obtain ⟨ascii, short, _⟩ := simple_iff.mp (busLines_simple line member)
    rwa [byteSize, encode_ascii ascii]
  lone line member := (simple_iff.mp (busLines_simple line member)).2.2.1
  clean line member := .inr (simple_iff.mp (busLines_simple line member)).2.2.2
  few := by rwa [List.length_replicate]

/-- Three buses are replaced by three buses. -/
theorem exchanged_buses_are_consistent : ∃ c, Watches unread (buses 3 (by decide) 1) [c] c ∧ c.Consistent := by
  obtain ⟨w, loaded⟩ := Watch.load_ok unread (buses 3 (by decide) 1)
  obtain ⟨c, run, file⟩ := ((Watches.start loaded).modified (buses 3 (by decide) 2)).goes_on
  refine ⟨c, run, (reloaded_table_is_consistent_iff run).mpr ?_ c List.mem_cons_self⟩
  intro earlier d before
  obtain ⟨rfl, last⟩ : earlier = [] ∧ d = c := by
    cases earlier with
    | nil => exact ⟨rfl, (List.cons_prefix_cons.mp before).1⟩
    | cons _ earlier =>
        have short := before.length_le
        simp only [List.cons_append, List.length_cons, List.length_append, List.length_nil] at short
        omega
  rw [last, List.nil_append, List.map_singleton, file]
  exact ⟨rfl, rfl⟩

/-- Three buses are taken away. A search looks behind the end of the table that is left. -/
theorem emptied_table_is_overread : ∃ c, Watches unread (buses 3 (by decide) 1) [c] c ∧ ¬ c.Consistent ∧
    c.Timetable.length < c.NUM_TIMETABLES - 1 := by
  let none := buses 0 (by decide) 2
  obtain ⟨w, loaded⟩ := Watch.load_ok unread (buses 3 (by decide) 1)
  have run := (Watches.start loaded).modified none
  have three : w.NUM_TIMETABLES = 3 := run.since.1.count
  have latest : w.latest_time = 1 := run.since.1.latest_time
  have left : readtimetable unread (some (encode none.text)) w.Station w.Timetable = .ok ⟨stationS, [unread], 0⟩ := rfl
  have ran : Watch.check_update_timetable unread { w with file := none } =
      .ok { w with file := none, Station := stationS, Timetable := [unread], held := none } := by
    unfold Watch.check_update_timetable
    have newer : none.mtime - w.latest_time > 0 := by
      rw [latest]
      decide
    rw [if_pos newer, left]
    rfl
  refine ⟨_, run.turn ran, fun consistent => ?_, ?_⟩
  · have count := consistent.count
    rw [three] at count
    cases count
  · have past : [unread].length < w.NUM_TIMETABLES - 1 := by
      rw [three]
      decide
    exact past

/-- The file is exchanged within the second in which it has been loaded: it never will be again. -/
theorem exchanged_at_once_is_not_loaded : ∃ c, Watches unread (buses 3 (by decide) 1) [c] c ∧
    c.file.entries.length = 4 ∧ c.NUM_TIMETABLES = 3 ∧ ¬ c.Consistent := by
  obtain ⟨w, loaded⟩ := Watch.load_ok unread (buses 3 (by decide) 1)
  obtain ⟨c, run, file⟩ := ((Watches.start loaded).modified (buses 4 (by decide) 1)).goes_on
  have since := run.since.1
  have three : c.NUM_TIMETABLES = 3 := since.count
  have four : c.file.entries.length = 4 := by
    rw [file]
    rfl
  refine ⟨c, run, four, three, fun consistent => ?_⟩
  have held := congrArg List.length consistent.entries
  rw [List.length_take, List.length_map, four, three] at held
  omega

/-- Both ways to lose the file. -/
theorem exchanged_files_are_lost :
    (∃ c, Watches unread (buses 3 (by decide) 1) [c] c ∧ ¬ c.Consistent ∧
      c.Timetable.length < c.NUM_TIMETABLES - 1) ∧
    ∃ c, Watches unread (buses 3 (by decide) 1) [c] c ∧
      c.file.entries.length = 4 ∧ c.NUM_TIMETABLES = 3 ∧ ¬ c.Consistent :=
  ⟨emptied_table_is_overread, exchanged_at_once_is_not_loaded⟩

/-! ### The Python station -/

/-- A running Python station, `latest_time`, and the file on the disk: its text and its time. -/
structure PyWatch where
  station : PyStation
  latest_time : ℤ
  text : Text
  mtime : ℤ

namespace PyWatch

/-- `Timetable(filename)` and `update_file_mtime`. -/
def load (station : PyStation) (text : Text) (mtime : ℤ) : PyWatch :=
  ⟨{ station with entries := load_timetable (some text) }, mtime, text, mtime⟩

/-- What the parameter of `check_and_update` is bound to at the end. -/
def check_and_update (w : PyWatch) (timetable : List (List Text)) : List (List Text) :=
  if w.mtime > w.latest_time then load_timetable (some w.text) else timetable

/-- A turn of the loop. What the parameter is bound to, nobody sees. -/
def turn (w : PyWatch) : PyWatch :=
  let _ := w.check_and_update w.station.entries
  w

/-- The searches are those of a timetable that is loaded now. -/
def Current (w : PyWatch) : Prop := ∀ destination time_earlier,
  w.station.search_timetable destination time_earlier =
    { w.station with entries := load_timetable (some w.text) }.search_timetable destination time_earlier

end PyWatch

/-- What a Python station has been through. Each file is newer than the one before. -/
inductive PyWatches (station : PyStation) (text : Text) (mtime : ℤ) : List PyWatch → PyWatch → Prop
  | start : PyWatches station text mtime [] (.load station text mtime)
  | modified {checks : List PyWatch} {w : PyWatch} (text' : Text) (mtime' : ℤ) :
      PyWatches station text mtime checks w → w.mtime < mtime' →
        PyWatches station text mtime checks { w with text := text', mtime := mtime' }
  | turn {checks : List PyWatch} {w : PyWatch} : PyWatches station text mtime checks w →
      PyWatches station text mtime (checks ++ [w.turn]) w.turn

section PyRuns
variable {station : PyStation} {text : Text} {mtime : ℤ} {checks : List PyWatch} {w : PyWatch}

/-- The station searches the table that it has started with. -/
theorem PyWatches.kept (run : PyWatches station text mtime checks w) :
    w.station = (PyWatch.load station text mtime).station ∧
      ∀ c ∈ checks, c.station = (PyWatch.load station text mtime).station := by
  induction run with
  | start => exact ⟨rfl, fun c member => absurd member List.not_mem_nil⟩
  | modified _ _ _ _ ih => exact ih
  | turn _ ih =>
      refine ⟨ih.1, fun c member => ?_⟩
      rcases List.mem_append.mp member with earlier | last
      · exact ih.2 c earlier
      · exact List.mem_singleton.mp last ▸ ih.1

/-- Where every check finds the rows of the first file, every search is up to date. -/
theorem unchanged_rows_are_searched (run : PyWatches station text mtime checks w)
    (same : ∀ c ∈ checks, (load_timetable (some c.text)).drop 1 = (load_timetable (some text)).drop 1) :
    ∀ c ∈ checks, c.Current := by
  intro c member destination time_earlier
  rw [run.kept.2 c member]
  unfold PyStation.search_timetable
  exact congrArg (searchEntries destination time_earlier) (same c member).symm

end PyRuns

/-- A comment is added to the file. -/
theorem commented_file_is_searched : ∃ c, PyWatches pyStationA (fileOf (busLines 1) true) 1 [c] c ∧ c.Current := by
  have run := (PyWatches.start.modified (fileOf commented false) 2 (by decide) :
    PyWatches pyStationA (fileOf (busLines 1) true) 1 [] _).turn
  refine ⟨_, run, unchanged_rows_are_searched run (fun c member => ?_) _ List.mem_cons_self⟩
  rw [List.mem_singleton.mp member]
  decide +kernel

/-- A bus is added to the file, and nobody finds it. -/
theorem new_bus_is_not_found : ∃ c, PyWatches pyStationA (fileOf (busLines 0) true) 1 [c] c ∧
    c.station.search_timetable "StationB".toList "07:30".toList = .ok none ∧
    { c.station with entries := load_timetable (some c.text) }.search_timetable "StationB".toList "07:30".toList =
      .ok (some (onRoute ['b']).columns) ∧ ¬ c.Current := by
  have run := (PyWatches.start.modified (fileOf (busLines 1) true) 2 (by decide) :
    PyWatches pyStationA (fileOf (busLines 0) true) 1 [] _).turn
  have found : searchEntries "StationB".toList "07:30".toList
      ((load_timetable (some (fileOf (busLines 1) true))).drop 1) = .ok (some (onRoute ['b']).columns) := by
    decide +kernel
  have missed : searchEntries "StationB".toList "07:30".toList
      ((load_timetable (some (fileOf (busLines 0) true))).drop 1) = .ok none := by
    decide +kernel
  refine ⟨_, run, missed, found, fun current => ?_⟩
  have same := current "StationB".toList "07:30".toList
  have clash := missed.symm.trans (same.trans found)
  cases clash

end TransitNet
