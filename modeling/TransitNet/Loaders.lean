import TransitNet.Python
import TransitNet.Utf8

/-! Both loaders of the timetable file. The C station scans lines of bytes into a table that grows,
the Python station strips and splits lines of text. -/
namespace TransitNet
open Words Utf8

def MAX_BUFFER : ℕ := 256

structure STATION where
  station_name : Text
  longitude : Text
  latitude : Text
  deriving DecidableEq, Repr

/-- The lines that `fgets` reads from a file one after the other, into a buffer with room for so many
bytes and the NUL. The first of them has been read in part. -/
def fgetsAll (room : ℕ) (line : Text) : Text → List Text
  | [] => if line = [] then [] else [line]
  | c :: file =>
      if c = '\n' ∨ line.length + 1 = room then (line ++ [c]) :: fgetsAll room [] file
      else fgetsAll room (line ++ [c]) file

/-- The strings that `sscanf` converts with `%width[^,]` for each width and commas between them, and
`%width[^\n]` for the last. -/
def scanColumns : List ℕ → Text → List Text
  | [], _ => []
  | [width], s => ((scanUntil '\n' width s).map Prod.fst).toList
  | width :: widths, s =>
      match scanUntil ',' width s with
      | some (column, ',' :: rest) => column :: scanColumns widths rest
      | some (column, _) => [column]
      | none => []

/-- `"%60[^,],%10[^,],%10[^\n]\n"` -/
def stationWidths : List ℕ := [60, 10, 10]

/-- `"%5[^,],%60[^,],%60[^,],%5[^,],%60[^\n]\n"` -/
def entryWidths : List ℕ := [5, 60, 60, 5, 60]

/-- What `sscanf` has converted is written, also where it stopped early. -/
def STATION.fill (columns : List Text) (old : STATION) : STATION where
  station_name := columns[0]?.getD old.station_name
  longitude := columns[1]?.getD old.longitude
  latitude := columns[2]?.getD old.latitude

def TIMETABLE.fill (columns : List Text) (old : TIMETABLE) : TIMETABLE where
  departure_time := columns[0]?.getD old.departure_time
  route_name := columns[1]?.getD old.route_name
  departing_from := columns[2]?.getD old.departing_from
  arrival_time := columns[3]?.getD old.arrival_time
  arrival_station := columns[4]?.getD old.arrival_station

/-- What `readtimetable` leaves behind: the station, the table with all of its slots, and `count`. -/
structure Loaded where
  Station : STATION
  Timetable : List TIMETABLE
  count : ℕ
  deriving DecidableEq, Repr

/-- The first loop, and the lines that it leaves to the second. -/
def readStation (Station : STATION) : List Text → STATION × List Text
  | [] => (Station, [])
  | line :: lines =>
      if line.head? = some '#' then readStation Station lines
      else
        let columns := scanColumns stationWidths (strdup line)
        if columns.length = 3 then (Station.fill columns, lines)
        else readStation (Station.fill columns) lines

/-- A line is scanned into the slot at `count`. `size` is an `int`; memory never runs out, and holds
`junk` where nothing has been written. -/
def Loaded.scan (junk : TIMETABLE) (l : Loaded) (line : Text) : Except Fault Loaded :=
  if l.count < l.Timetable.length then
    let columns := scanColumns entryWidths (strdup line)
    let Timetable := l.Timetable.modify l.count (TIMETABLE.fill columns)
    if columns.length = 5 then
      if l.count + 1 = Timetable.length then
        if 2 * Timetable.length ≤ INT_MAX then
          .ok { l with Timetable := Timetable ++ List.replicate Timetable.length junk, count := l.count + 1 }
        else .error .overflow
      else .ok { l with Timetable, count := l.count + 1 }
    else .ok { l with Timetable }
  else .error .index

/-- The second loop. -/
def Loaded.read (junk : TIMETABLE) (l : Loaded) : List Text → Except Fault Loaded
  | [] => .ok l
  | line :: lines =>
      if line.head? = some '#' then l.read junk lines
      else do
        let l ← l.scan junk line
        l.read junk lines

/-- A file that cannot be opened counts as one entry. -/
def readtimetable (junk : TIMETABLE) (file : Option Text) (Station : STATION) (Timetable : List TIMETABLE) :
    Except Fault Loaded :=
  match file with
  | none => .ok ⟨Station, Timetable, 1⟩
  | some file =>
      let (Station, lines) := readStation Station (fgetsAll (MAX_BUFFER - 1) [] file)
      Loaded.read junk ⟨Station, [junk], 0⟩ lines

/-- What a text file makes of carriage returns. -/
def newlines : Text → Text
  | [] => []
  | '\r' :: '\n' :: s => '\n' :: newlines s
  | '\r' :: s => '\n' :: newlines s
  | c :: s => c :: newlines s

/-- One line of the file, if it is an entry. -/
def loadEntry (line : Text) : Option (List Text) :=
  let line := strip line
  if line.head? ≠ some '#' ∧ line ≠ [] then some (line.splitOn ',') else none

/-- The entries of a `Timetable`. There are none if the file cannot be opened. -/
def load_timetable (file : Option Text) : List (List Text) :=
  match file with
  | none => []
  | some file => ((newlines file).splitOn '\n').filterMap loadEntry

/-! ### The documented format -/

/-- What stands between two columns, or nowhere in a line that has columns. -/
def separates (c : Char) : Bool := whitespace c || c = ','

/-- A column, whose length may be measured in characters or in bytes. -/
structure Column (size : Text → ℕ) (limit : ℕ) (s : Text) : Prop where
  word : Word separates s
  short : size s ≤ limit

def STATION.columns (s : STATION) : List Text := [s.station_name, s.longitude, s.latitude]

def TIMETABLE.columns (e : TIMETABLE) : List Text :=
  [e.departure_time, e.route_name, e.departing_from, e.arrival_time, e.arrival_station]

def lineOf (columns : List Text) : Text := [','].intercalate columns

/-- Columns of the widths that the scans have. -/
structure Documented (size : Text → ℕ) (widths : List ℕ) (columns : List Text) : Prop where
  fitting : List.Forall₂ (Column size) widths columns
  uncommented : (lineOf columns).head? ≠ some '#'

/-- A comment, or nothing but space. -/
def Idle (line : Text) : Prop := line.head? = some '#' ∨ ∀ c ∈ line, whitespace c = true

/-- Lines of entries, among idle ones. -/
inductive EntryLines (size : Text → ℕ) : List Text → List TIMETABLE → Prop
  | nil : EntryLines size [] []
  | idle {line : Text} {lines : List Text} {entries : List TIMETABLE} :
      Idle line → EntryLines size lines entries → EntryLines size (line :: lines) entries
  | entry {e : TIMETABLE} {lines : List Text} {entries : List TIMETABLE} :
      Documented size entryWidths e.columns → EntryLines size lines entries →
        EntryLines size (lineOf e.columns :: lines) (e :: entries)

/-- The station's line, then entries. -/
inductive TimetableLines (size : Text → ℕ) : List Text → STATION → List TIMETABLE → Prop
  | idle {line : Text} {lines : List Text} {s : STATION} {entries : List TIMETABLE} :
      Idle line → TimetableLines size lines s entries → TimetableLines size (line :: lines) s entries
  | station {s : STATION} {lines : List Text} {entries : List TIMETABLE} :
      Documented size stationWidths s.columns → EntryLines size lines entries →
        TimetableLines size (lineOf s.columns :: lines) s entries

/-- The file with these lines. The last of them may lack its newline. -/
def fileOf (lines : List Text) (ended : Bool) : Text :=
  ['\n'].intercalate lines ++ if ended then ['\n'] else []

/-! ### Scanning -/

theorem head_encode {c : Char} (ascii : c.toNat < 128) (s : Text) :
    (encode s).head? = some c ↔ s.head? = some c := by
  cases s with
  | nil => exact Iff.rfl
  | cons d s =>
      rw [encode_cons, List.head?_cons]
      by_cases low : d.toNat < 128
      · rw [bytes_ascii low, List.singleton_append, List.head?_cons]
      · have some := encode_ne_nil (List.cons_ne_nil d [])
        rw [encode_cons, encode_nil, List.append_nil] at some
        obtain ⟨b, rest, whole⟩ := List.exists_cons_of_ne_nil some
        have high := bytes_high (Nat.le_of_not_lt low) (whole ▸ List.mem_cons_self : b ∈ bytes d)
        rw [whole, List.cons_append, List.head?_cons, Option.some.injEq, Option.some.injEq]
        constructor
        · rintro rfl
          omega
        · rintro rfl
          exact absurd ascii low

theorem encode_lineOf (columns : List Text) : encode (lineOf columns) = lineOf (columns.map encode) := by
  have comma : encode [','] = [','] := by decide
  unfold lineOf
  induction columns with
  | nil => rfl
  | cons w columns ih =>
      cases columns with
      | nil => simp only [List.intercalate_singleton, List.map_cons, List.map_nil]
      | cons v columns =>
          rw [List.map_cons, List.map_cons, List.intercalate_cons_cons, List.intercalate_cons_cons, ← List.map_cons,
            ← ih, encode_append, encode_append, comma]

theorem scanUntil_end {stop : Char} {width : ℕ} {s : Text} (nonempty : s ≠ []) (short : s.length ≤ width)
    (plain : stop ∉ s) : scanUntil stop width s = some (s, []) := by
  have taken : (s.take width).takeWhile (· ≠ stop) = s := by
    rw [List.take_of_length_le short]
    exact List.takeWhile_eq_self_iff.mpr (all_ne plain)
  simp only [scanUntil, taken, List.isEmpty_iff, List.drop_length]
  rw [if_neg nonempty]

/-- A column that a scan takes whole. -/
structure Scanned (width : ℕ) (s : Text) : Prop where
  nonempty : s ≠ []
  short : s.length ≤ width
  comma : ',' ∉ s
  newline : '\n' ∉ s
  nul : NUL ∉ s

instance (width : ℕ) (s : Text) : Decidable (Scanned width s) :=
  decidable_of_iff (s ≠ [] ∧ s.length ≤ width ∧ ',' ∉ s ∧ '\n' ∉ s ∧ NUL ∉ s)
    ⟨fun ⟨h₁, h₂, h₃, h₄, h₅⟩ => ⟨h₁, h₂, h₃, h₄, h₅⟩, fun ⟨h₁, h₂, h₃, h₄, h₅⟩ => ⟨h₁, h₂, h₃, h₄, h₅⟩⟩

/-- The end of a line, which the file may lack. -/
def Ending (tail : Text) : Prop := tail = [] ∨ tail = ['\n']

theorem scanColumns_lineOf {widths : List ℕ} {columns : List Text} (fit : List.Forall₂ Scanned widths columns)
    {tail : Text} (ending : Ending tail) : scanColumns widths (lineOf columns ++ tail) = columns := by
  induction fit with
  | nil => rfl
  | @cons width w widths columns first fit ih =>
      cases fit with
      | nil =>
          rw [lineOf, List.intercalate_singleton, scanColumns]
          rcases ending with rfl | rfl
          · rw [List.append_nil, scanUntil_end first.nonempty first.short first.newline]
            rfl
          · rw [scanUntil_stop first.nonempty first.short first.newline]
            rfl
      | @cons width' v widths columns second fit =>
          have front : lineOf (w :: v :: columns) ++ tail = w ++ ',' :: (lineOf (v :: columns) ++ tail) := by
            simp only [lineOf, List.intercalate_cons_cons, List.append_assoc, List.cons_append, List.nil_append]
          rw [front, scanColumns]
          simp only [scanUntil_stop first.nonempty first.short first.comma, ih]
          exact List.cons_ne_nil _ _

/-- Without a comma there is at most one column. -/
theorem scanColumns_plain {s : Text} (plain : ',' ∉ s) (width width' : ℕ) (widths : List ℕ) :
    (scanColumns (width :: width' :: widths) s).length ≤ 1 := by
  rw [scanColumns]
  split
  · rename_i column rest scanned
    unfold scanUntil at scanned
    dsimp only at scanned
    split at scanned
    · cases scanned
    · rw [Option.some.injEq, Prod.mk.injEq] at scanned
      have inside : ',' ∈ s.drop ((s.take width).takeWhile (· ≠ ',')).length := scanned.2 ▸ List.mem_cons_self
      exact absurd (List.mem_of_mem_drop inside) plain
  · exact Nat.le_refl 1
  · exact Nat.zero_le 1
  · exact List.cons_ne_nil _ _

/-! ### Lines and what is read of them -/

/-- What `fgets` reads of the lines of a file. A last line that is empty may be no line at all. -/
inductive Read : List Text → List Text → Prop
  | nil : Read [] []
  | none {lines chunks : List Text} : Read lines chunks → Read ([] :: lines) chunks
  | line {line tail : Text} {lines chunks : List Text} : Ending tail → Read lines chunks →
      Read (line :: lines) ((encode line ++ tail) :: chunks)

theorem fgetsAll_line {room : ℕ} {line : Text} (plain : '\n' ∉ line) {read : Text}
    (short : read.length + line.length < room) (file : Text) :
    fgetsAll room read (line ++ '\n' :: file) = (read ++ line ++ ['\n']) :: fgetsAll room [] file := by
  induction line generalizing read with
  | nil => rw [List.nil_append, fgetsAll, if_pos (.inl rfl), List.append_nil]
  | cons c line ih =>
      rw [List.mem_cons, not_or] at plain
      rw [List.length_cons] at short
      rw [List.cons_append, fgetsAll, if_neg (by rintro (rfl | full) <;> [exact plain.1 rfl; omega]),
        ih plain.2 (by rw [List.length_append, List.length_singleton]; omega), List.append_assoc read,
        List.singleton_append]

theorem fgetsAll_last {room : ℕ} {line : Text} (plain : '\n' ∉ line) {read : Text}
    (short : read.length + line.length < room) :
    fgetsAll room read line = if read ++ line = [] then [] else [read ++ line] := by
  induction line generalizing read with
  | nil => rw [List.append_nil]; rfl
  | cons c line ih =>
      rw [List.mem_cons, not_or] at plain
      rw [List.length_cons] at short
      rw [fgetsAll, if_neg (by rintro (rfl | full) <;> [exact plain.1 rfl; omega]),
        ih plain.2 (by rw [List.length_append, List.length_singleton]; omega), List.append_assoc,
        List.singleton_append]

/-- A line that `fgets` reads in one piece, and Python as one line. -/
structure OnePiece (line : Text) : Prop where
  newline : '\n' ∉ line
  short : (encode line).length < MAX_BUFFER - 1

theorem read_fileOf {lines : List Text} (plain : ∀ line ∈ lines, OnePiece line) (ended : Bool) (some : lines ≠ []) :
    Read lines (fgetsAll (MAX_BUFFER - 1) [] (encode (fileOf lines ended))) := by
  have newline : encode ['\n'] = ['\n'] := by decide
  have bare : ∀ line ∈ lines, '\n' ∉ encode line := fun line member inside =>
    (plain line member).newline ((mem_encode (by decide)).mp inside)
  induction lines with
  | nil => exact absurd rfl some
  | cons line lines ih =>
      have first := plain line List.mem_cons_self
      have clean := bare line List.mem_cons_self
      have short : ([] : Text).length + (encode line).length < MAX_BUFFER - 1 := by
        rw [List.length_nil, Nat.zero_add]
        exact first.short
      cases lines with
      | nil =>
          rw [fileOf, List.intercalate_singleton, encode_append]
          cases ended with
          | true =>
              rw [if_pos rfl, newline, fgetsAll_line clean short]
              exact .line (.inr rfl) .nil
          | false =>
              rw [if_neg Bool.false_ne_true, encode_nil, List.append_nil, fgetsAll_last clean short, List.nil_append]
              split
              · rename_i empty
                have none : line = [] := by
                  by_contra nonempty
                  exact encode_ne_nil nonempty empty
                exact none ▸ .none .nil
              · have whole : Read [line] [encode line ++ []] := .line (.inl rfl) .nil
                rwa [List.append_nil] at whole
      | cons second lines =>
          have cut : fileOf (line :: second :: lines) ended = line ++ '\n' :: fileOf (second :: lines) ended := by
            simp only [fileOf, List.intercalate_cons_cons, List.append_assoc, List.cons_append, List.nil_append]
          have bytes : encode (fileOf (line :: second :: lines) ended) =
              encode line ++ '\n' :: encode (fileOf (second :: lines) ended) := by
            rw [cut, encode_append, encode_cons, bytes_ascii (by decide), List.singleton_append]
          rw [bytes, fgetsAll_line clean short]
          exact .line (.inr rfl) (ih (fun l member => plain l (List.mem_cons_of_mem line member))
            (List.cons_ne_nil _ _) fun l member => bare l (List.mem_cons_of_mem line member))

/-! ### The second loop -/

/-- The length that the C station measures. -/
def byteSize (s : Text) : ℕ := (encode s).length

def STATION.encoded (s : STATION) : STATION := ⟨encode s.station_name, encode s.longitude, encode s.latitude⟩

def TIMETABLE.encoded (e : TIMETABLE) : TIMETABLE where
  departure_time := encode e.departure_time
  route_name := encode e.route_name
  departing_from := encode e.departing_from
  arrival_time := encode e.arrival_time
  arrival_station := encode e.arrival_station

/-- More entries behind the ones before, and a free slot. -/
structure Loaded.Grows (l l' : Loaded) (entries : List TIMETABLE) : Prop where
  Station : l'.Station = l.Station
  count : l'.count = l.count + entries.length
  room : l'.count < l'.Timetable.length
  filled : l'.Timetable.take l'.count = l.Timetable.take l.count ++ entries

theorem Loaded.Grows.trans {l l' l'' : Loaded} {entries more : List TIMETABLE} (first : l.Grows l' entries)
    (second : l'.Grows l'' more) : l.Grows l'' (entries ++ more) where
  Station := second.Station.trans first.Station
  count := by rw [second.count, first.count, List.length_append, Nat.add_assoc]
  room := second.room
  filled := by rw [second.filled, first.filled, List.append_assoc]

theorem take_modify_self {α : Type*} (xs : List α) (i : ℕ) (f : α → α) : (xs.modify i f).take i = xs.take i := by
  rw [List.take_modify, List.modify_eq_self (List.length_take_le i xs)]

section Scan
variable {junk : TIMETABLE} {l : Loaded} {line : Text}

theorem Loaded.scan_idle (junk : TIMETABLE) (room : l.count < l.Timetable.length)
    (few : (scanColumns entryWidths (strdup line)).length ≠ 5) :
    ∃ l', l.scan junk line = .ok l' ∧ l.Grows l' [] := by
  refine ⟨{ l with Timetable := l.Timetable.modify l.count (TIMETABLE.fill (scanColumns entryWidths (strdup line))) },
    ?_, rfl, rfl, ?_, ?_⟩
  · simp only [Loaded.scan, if_pos room, if_neg few]
  · rwa [List.length_modify]
  · rw [take_modify_self, List.append_nil]

theorem Loaded.scan_entry (junk : TIMETABLE) (room : l.count < l.Timetable.length) {e : TIMETABLE}
    (scanned : scanColumns entryWidths (strdup line) = e.columns) (few : 2 * (l.count + 1) ≤ INT_MAX) :
    ∃ l', l.scan junk line = .ok l' ∧ l.Grows l' [e] := by
  have five : e.columns.length = 5 := rfl
  have whole : TIMETABLE.fill e.columns = fun _ => e := rfl
  let Timetable := l.Timetable.modify l.count (TIMETABLE.fill e.columns)
  have size : Timetable.length = l.Timetable.length := List.length_modify ..
  have filled : Timetable.take (l.count + 1) = l.Timetable.take l.count ++ [e] := by
    have here : Timetable[l.count]? = some e := by
      rw [List.getElem?_modify_eq, List.getElem?_eq_getElem room, whole]
      rfl
    rw [List.take_add_one, here, take_modify_self, Option.toList_some]
  by_cases full : l.count + 1 = l.Timetable.length
  · refine ⟨{ l with Timetable := Timetable ++ List.replicate Timetable.length junk, count := l.count + 1 },
      ?_, rfl, rfl, ?_, ?_⟩
    · have fits : 2 * l.Timetable.length ≤ INT_MAX := full ▸ few
      simp only [Loaded.scan, if_pos room, scanned, if_pos five, List.length_modify, if_pos full, if_pos fits, Timetable]
    · show l.count + 1 < (Timetable ++ List.replicate Timetable.length junk).length
      rw [List.length_append, List.length_replicate]
      omega
    · show (Timetable ++ List.replicate Timetable.length junk).take (l.count + 1) = _
      rw [List.take_append_of_le_length (by omega), filled]
  · refine ⟨{ l with Timetable, count := l.count + 1 }, ?_, rfl, rfl, ?_, filled⟩
    · simp only [Loaded.scan, if_pos room, scanned, if_pos five, List.length_modify, if_neg full, Timetable]
    · show l.count + 1 < Timetable.length
      omega

end Scan

/-- A line that is a comment, or holds no NUL. -/
def Clean (line : Text) : Prop := line.head? = some '#' ∨ NUL ∉ line

theorem encode_nul {s : Text} (nul : NUL ∉ s) {tail : Text} (ending : Ending tail) : NUL ∉ encode s ++ tail := by
  rw [List.mem_append, mem_encode (by decide), not_or]
  refine ⟨nul, ?_⟩
  rcases ending with rfl | rfl
  · exact List.not_mem_nil
  · exact fun member => absurd (List.mem_singleton.mp member) (by decide)

/-- The end of a line makes no comment of it. -/
theorem uncommented_append {s : Text} (uncommented : s.head? ≠ some '#') {tail : Text} (ending : Ending tail) :
    (s ++ tail).head? ≠ some '#' := by
  intro comment
  rw [List.head?_append] at comment
  cases first : s.head? with
  | some c =>
      rw [first] at comment
      exact uncommented (first.trans comment)
  | none =>
      rw [first] at comment
      rcases ending with rfl | rfl <;> cases comment

section Documented
variable {widths : List ℕ} {columns : List Text}

theorem Documented.clean (h : Documented byteSize widths columns) (clean : Clean (lineOf columns)) :
    NUL ∉ lineOf columns := clean.resolve_left h.uncommented

theorem Documented.scanned (h : Documented byteSize widths columns) (clean : Clean (lineOf columns)) {tail : Text}
    (ending : Ending tail) :
    scanColumns widths (strdup (encode (lineOf columns) ++ tail)) = columns.map encode := by
  have nul := h.clean clean
  have fit : List.Forall₂ Scanned widths (columns.map encode) := by
    have columnwise : ∀ w ∈ columns, NUL ∉ w := fun w member inside => nul (mem_intercalate_of_mem ',' member inside)
    have fitting := h.fitting
    clear h clean nul
    induction fitting with
    | nil => exact .nil
    | @cons width w widths columns first _ ih =>
        rw [List.map_cons]
        refine .cons ?_ (ih fun v member => columnwise v (List.mem_cons_of_mem w member))
        have outside : ∀ c : Char, separates c = true → c ∉ w := by
          intro c separating member
          rw [first.word.clean c member] at separating
          cases separating
        exact ⟨encode_ne_nil first.word.nonempty, first.short,
          fun member => outside ',' (by decide) ((mem_encode (by decide)).mp member),
          fun member => outside '\n' (by decide) ((mem_encode (by decide)).mp member),
          fun member => columnwise w List.mem_cons_self ((mem_encode (by decide)).mp member)⟩
  rw [strdup_self (encode_nul nul ending), encode_lineOf, scanColumns_lineOf fit ending]

theorem Documented.line_ne_nil (h : Documented byteSize widths columns) (some : widths ≠ []) : lineOf columns ≠ [] := by
  intro empty
  cases fitting : h.fitting with
  | nil => exact some rfl
  | @cons _ w _ columns first _ =>
      obtain ⟨c, rest, rfl⟩ := List.exists_cons_of_ne_nil first.word.nonempty
      have inside : c ∈ lineOf ((c :: rest) :: columns) :=
        mem_intercalate_of_mem ',' List.mem_cons_self List.mem_cons_self
      rw [empty] at inside
      cases inside

theorem Documented.uncommented_bytes (h : Documented byteSize widths columns) {tail : Text} (ending : Ending tail) :
    (encode (lineOf columns) ++ tail).head? ≠ some '#' :=
  uncommented_append (fun comment => h.uncommented ((head_encode (by decide) _).mp comment)) ending

end Documented

/-- An idle line is skipped, or too few columns are read from it. -/
theorem Idle.scanned {line : Text} (idle : Idle line) {tail : Text} (ending : Ending tail) (width width' : ℕ)
    (widths : List ℕ) : (encode line ++ tail).head? = some '#' ∨
      (scanColumns (width :: width' :: widths) (strdup (encode line ++ tail))).length ≤ 1 := by
  rcases idle with comment | blank
  · left
    rw [List.head?_append, (head_encode (by decide) line).mpr comment]
    rfl
  · right
    refine scanColumns_plain (fun member => ?_) width width' widths
    rcases List.mem_append.mp ((List.takeWhile_prefix _).mem member) with inside | last
    · exact absurd (blank ',' ((mem_encode (by decide)).mp inside)) (by decide)
    · rcases ending with rfl | rfl
      · cases last
      · cases List.mem_singleton.mp last

theorem Loaded.read_entries (junk : TIMETABLE) {lines : List Text} {entries : List TIMETABLE}
    (listed : EntryLines byteSize lines entries) (clean : ∀ line ∈ lines, Clean line) {chunks : List Text}
    (read : Read lines chunks) {l : Loaded} (room : l.count < l.Timetable.length)
    (few : 2 * (l.count + entries.length) ≤ INT_MAX) :
    ∃ l', l.read junk chunks = .ok l' ∧ l.Grows l' (entries.map TIMETABLE.encoded) := by
  induction listed generalizing chunks l with
  | nil =>
      cases read
      refine ⟨l, rfl, rfl, rfl, room, ?_⟩
      rw [List.map_nil, List.append_nil]
  | @idle line lines entries idle _ ih =>
      have later := fun l member => clean l (List.mem_cons_of_mem line member)
      cases read with
      | none read => exact ih later read room few
      | @line _ tail _ chunks ending read =>
          rw [Loaded.read]
          split
          · exact ih later read room few
          · rename_i uncommented
            have short := (idle.scanned ending 5 60 [60, 5, 60]).resolve_left uncommented
            have missed : (scanColumns entryWidths (strdup (encode line ++ tail))).length ≠ 5 := by
              intro five
              rw [entryWidths] at five
              omega
            obtain ⟨l', scanned, grows⟩ := Loaded.scan_idle junk room missed
            obtain ⟨l'', ran, more⟩ := ih later read grows.room (by rw [grows.count]; exact few)
            refine ⟨l'', ?_, grows.trans more⟩
            simp only [scanned, bind, Except.bind, ran]
  | @entry e lines entries documented _ ih =>
      have later := fun l member => clean l (List.mem_cons_of_mem _ member)
      rw [List.length_cons] at few
      have nonempty := documented.line_ne_nil (by decide)
      generalize whole : lineOf e.columns = text at read nonempty
      cases read with
      | none read => exact absurd rfl nonempty
      | @line _ tail _ chunks ending read =>
          subst whole
          have columns := documented.scanned (clean _ List.mem_cons_self) ending
          have encoded : e.columns.map encode = e.encoded.columns := rfl
          rw [encoded] at columns
          obtain ⟨l', scanned, grows⟩ := Loaded.scan_entry junk room columns (by omega)
          obtain ⟨l'', ran, more⟩ := ih later read grows.room
            (by rw [grows.count, List.length_singleton]; omega)
          refine ⟨l'', ?_, grows.trans more⟩
          rw [Loaded.read, if_neg (documented.uncommented_bytes ending)]
          simp only [scanned, bind, Except.bind, ran]

/-! ### The first loop -/

theorem read_timetable {lines : List Text} {s : STATION} {entries : List TIMETABLE}
    (listed : TimetableLines byteSize lines s entries) (clean : ∀ line ∈ lines, Clean line) {chunks : List Text}
    (read : Read lines chunks) (old : STATION) : ∃ rest chunks', EntryLines byteSize rest entries ∧
      (∀ line ∈ rest, Clean line) ∧ Read rest chunks' ∧ readStation old chunks = (s.encoded, chunks') := by
  induction listed generalizing chunks old with
  | @idle line lines _ _ idle _ ih =>
      have later := fun l member => clean l (List.mem_cons_of_mem line member)
      cases read with
      | none read => exact ih later read old
      | @line _ tail _ chunks ending read =>
          rw [readStation]
          split
          · exact ih later read old
          · rename_i uncommented
            have short := (idle.scanned ending 60 10 [10]).resolve_left uncommented
            have missed : (scanColumns stationWidths (strdup (encode line ++ tail))).length ≠ 3 := by
              intro three
              rw [stationWidths] at three
              omega
            rw [if_neg missed]
            exact ih later read _
  | @station s lines entries documented listed =>
      have later := fun l member => clean l (List.mem_cons_of_mem _ member)
      have nonempty := documented.line_ne_nil (by decide)
      have first := clean _ List.mem_cons_self
      generalize whole : lineOf s.columns = text at read nonempty
      cases read with
      | none read => exact absurd rfl nonempty
      | @line _ tail _ chunks ending read =>
          subst whole
          have columns := documented.scanned first ending
          have encoded : s.columns.map encode = s.encoded.columns := rfl
          have three : s.encoded.columns.length = 3 := rfl
          refine ⟨lines, chunks, listed, later, read, ?_⟩
          rw [readStation, if_neg (documented.uncommented_bytes ending), columns, encoded, if_pos three]
          rfl

/-! ### Files that only the C station can read -/

/-- Columns that the scans take whole, which may hold space, in a line that is no comment. -/
structure Scannable (widths : List ℕ) (columns : List Text) : Prop where
  fit : List.Forall₂ Scanned widths columns
  uncommented : (lineOf columns).head? ≠ some '#'

instance (widths : List ℕ) (columns : List Text) : Decidable (Scannable widths columns) :=
  decidable_of_iff (List.Forall₂ Scanned widths columns ∧ (lineOf columns).head? ≠ some '#')
    ⟨fun ⟨h₁, h₂⟩ => ⟨h₁, h₂⟩, fun ⟨h₁, h₂⟩ => ⟨h₁, h₂⟩⟩

section Scannable
variable {widths : List ℕ} {columns : List Text}

theorem scanned_column (fit : List.Forall₂ Scanned widths columns) {w : Text} (listed : w ∈ columns) :
    ∃ width, Scanned width w := by
  induction fit with
  | nil => cases listed
  | @cons width v widths columns first _ ih =>
      rcases List.mem_cons.mp listed with rfl | later
      · exact ⟨width, first⟩
      · exact ih later

theorem Scannable.plain (h : Scannable widths columns) : '\n' ∉ lineOf columns ∧ NUL ∉ lineOf columns := by
  have outside : ∀ {c : Char}, c ≠ ',' → (∀ w ∈ columns, c ∉ w) → c ∉ lineOf columns := by
    intro c other bare member
    rcases mem_intercalate member with comma | ⟨w, listed, inside⟩
    · exact other comma
    · exact bare w listed inside
  refine ⟨outside (by decide) fun w listed => ?_, outside (by decide) fun w listed => ?_⟩
  · obtain ⟨width, scanned⟩ := scanned_column h.fit listed
    exact scanned.newline
  · obtain ⟨width, scanned⟩ := scanned_column h.fit listed
    exact scanned.nul

theorem Scannable.length_le (fit : List.Forall₂ Scanned widths columns) :
    (lineOf columns).length ≤ widths.sum + widths.length := by
  induction fit with
  | nil => exact Nat.zero_le _
  | @cons width w widths columns first fit ih =>
      have short := first.short
      cases fit with
      | nil =>
          rw [lineOf, List.intercalate_singleton, List.sum_singleton, List.length_singleton]
          omega
      | @cons width' v widths columns second fit =>
          have cut : lineOf (w :: v :: columns) = w ++ ',' :: lineOf (v :: columns) := by
            rw [lineOf, List.intercalate_cons_cons, List.append_assoc, List.singleton_append, lineOf]
          rw [cut, List.length_append, List.length_cons, List.sum_cons, List.length_cons]
          omega

theorem Scannable.scanned (h : Scannable widths columns) :
    scanColumns widths (strdup (lineOf columns ++ ['\n'])) = columns := by
  have nul : NUL ∉ lineOf columns ++ ['\n'] := by
    rw [List.mem_append, not_or]
    exact ⟨h.plain.2, by decide⟩
  rw [strdup_self nul, scanColumns_lineOf h.fit (.inr rfl)]

theorem Scannable.uncommented_line (h : Scannable widths columns) :
    (lineOf columns ++ ['\n']).head? ≠ some '#' := uncommented_append h.uncommented (.inr rfl)

end Scannable

theorem fgetsAll_lines {room : ℕ} {lines : List Text} (plain : ∀ line ∈ lines, '\n' ∉ line ∧ line.length < room) :
    fgetsAll room [] (lines.flatMap (· ++ ['\n'])) = lines.map (· ++ ['\n']) := by
  induction lines with
  | nil => rfl
  | cons line lines ih =>
      obtain ⟨clean, short⟩ := plain line List.mem_cons_self
      rw [List.flatMap_cons, List.append_assoc, List.singleton_append, fgetsAll_line clean (by
        rw [List.length_nil, Nat.zero_add]
        exact short), ih fun l member => plain l (List.mem_cons_of_mem line member), List.nil_append, List.map_cons]

theorem Loaded.read_rows (junk : TIMETABLE) {rows : List TIMETABLE}
    (scannable : ∀ e ∈ rows, Scannable entryWidths e.columns) {l : Loaded} (room : l.count < l.Timetable.length)
    (few : 2 * (l.count + rows.length) ≤ INT_MAX) :
    ∃ l', l.read junk (rows.map fun e => lineOf e.columns ++ ['\n']) = .ok l' ∧ l.Grows l' rows := by
  induction rows generalizing l with
  | nil =>
      refine ⟨l, rfl, rfl, rfl, room, ?_⟩
      rw [List.append_nil]
  | cons e rows ih =>
      rw [List.length_cons] at few
      have first := scannable e List.mem_cons_self
      obtain ⟨l', scanned, grows⟩ := Loaded.scan_entry junk room first.scanned (by omega)
      obtain ⟨l'', ran, more⟩ := ih (fun e' member => scannable e' (List.mem_cons_of_mem e member)) grows.room
        (by rw [grows.count, List.length_singleton]; omega)
      refine ⟨l'', ?_, grows.trans more⟩
      rw [List.map_cons, Loaded.read, if_neg first.uncommented_line]
      simp only [scanned, bind, Except.bind, ran]

/-- The file of a station at this place, with these rows. -/
def rowsFile (place : STATION) (rows : List TIMETABLE) : Text :=
  (lineOf place.columns :: rows.map fun e => lineOf e.columns).flatMap (· ++ ['\n'])

theorem readtimetable_rows {place : STATION} (headed : Scannable stationWidths place.columns) {rows : List TIMETABLE}
    (scannable : ∀ e ∈ rows, Scannable entryWidths e.columns) (few : 2 * rows.length ≤ INT_MAX) (junk : TIMETABLE)
    (Station : STATION) (Timetable : List TIMETABLE) : ∃ l,
      readtimetable junk (some (rowsFile place rows)) Station Timetable = .ok l ∧ l.Station = place ∧
        l.count = rows.length ∧ l.Timetable.take l.count = rows := by
  have short : ∀ {widths : List ℕ} {columns : List Text}, Scannable widths columns →
      widths.sum + widths.length < MAX_BUFFER - 1 → (lineOf columns).length < MAX_BUFFER - 1 :=
    fun h room => (Scannable.length_le h.fit).trans_lt room
  have lines : fgetsAll (MAX_BUFFER - 1) [] (rowsFile place rows) =
      (lineOf place.columns ++ ['\n']) :: rows.map fun e => lineOf e.columns ++ ['\n'] := by
    rw [rowsFile, fgetsAll_lines, List.map_cons, List.map_map]
    · rfl
    · intro line member
      rcases List.mem_cons.mp member with rfl | listed
      · exact ⟨headed.plain.1, short headed (by decide)⟩
      · obtain ⟨e, inside, rfl⟩ := List.mem_map.mp listed
        exact ⟨(scannable e inside).plain.1, short (scannable e inside) (by decide)⟩
  have three : place.columns.length = 3 := rfl
  have whole : Station.fill place.columns = place := rfl
  obtain ⟨l, read, grows⟩ := Loaded.read_rows junk scannable (l := ⟨place, [junk], 0⟩) Nat.zero_lt_one
    (by rw [Nat.zero_add]; exact few)
  refine ⟨l, ?_, grows.Station, grows.count.trans (Nat.zero_add _), grows.filled⟩
  simp only [readtimetable, lines, readStation, if_neg headed.uncommented_line, headed.scanned, if_pos three, whole]
  exact read

/-! ### Stripping and splitting -/

theorem newlines_plain {s : Text} (plain : '\r' ∉ s) : newlines s = s := by
  induction s with
  | nil => rfl
  | cons c s ih =>
      rw [List.mem_cons, not_or] at plain
      rw [newlines, ih plain.2]
      · rintro _ rfl
        exact absurd rfl plain.1
      · rintro rfl
        exact absurd rfl plain.1

theorem load_fileOf {lines : List Text} (plain : ∀ line ∈ lines, '\n' ∉ line ∧ '\r' ∉ line) (some : lines ≠ [])
    (ended : Bool) : load_timetable (.some (fileOf lines ended)) = lines.filterMap loadEntry := by
  have newline : ∀ line ∈ lines, '\n' ∉ line := fun line member => (plain line member).1
  have kept : newlines (fileOf lines ended) = fileOf lines ended := by
    apply newlines_plain
    intro member
    rcases List.mem_append.mp member with inside | last
    · rcases mem_intercalate inside with same | ⟨line, listed, inside⟩
      · exact absurd same (by decide)
      · exact (plain line listed).2 inside
    · split at last
      · exact absurd (List.mem_singleton.mp last) (by decide)
      · cases last
  rw [load_timetable, kept]
  cases ended with
  | false =>
      rw [fileOf, if_neg Bool.false_ne_true, List.append_nil, List.splitOn_intercalate '\n' newline some]
  | true =>
      have last : fileOf lines true = ['\n'].intercalate (lines ++ [[]]) := (intercalate_concat_nil '\n' some).symm
      have bare : ∀ line ∈ lines ++ [[]], '\n' ∉ line := by
        intro line member
        rcases List.mem_append.mp member with inside | empty
        · exact newline line inside
        · rw [List.mem_singleton.mp empty]
          exact List.not_mem_nil
      have nothing : loadEntry [] = none := rfl
      rw [last, List.splitOn_intercalate '\n' bare (List.append_ne_nil_of_left_ne_nil some _), List.filterMap_append,
        List.filterMap_cons_none nothing, List.filterMap_nil, List.append_nil]

theorem strip_comment (s : Text) : (strip ('#' :: s)).head? = some '#' := by
  have solid : whitespace '#' = false := by decide
  have front : ('#' :: s).dropWhile whitespace = '#' :: s :=
    List.dropWhile_cons_of_neg (by rw [solid]; exact Bool.false_ne_true)
  rw [strip, front, List.reverse_cons, List.dropWhile_append]
  split
  · rw [List.dropWhile_cons_of_neg (by rw [solid]; exact Bool.false_ne_true)]
    rfl
  · rw [List.reverse_append]
    rfl

theorem Idle.loaded {line : Text} (idle : Idle line) : loadEntry line = none := by
  rcases idle with comment | blank
  · obtain ⟨rest, rfl⟩ := List.head?_eq_some_iff.mp comment
    rw [loadEntry, if_neg]
    exact fun entry => entry.1 (strip_comment rest)
  · have empty : strip line = [] := by
      rw [strip, List.dropWhile_eq_nil_iff.mpr blank]
      rfl
    rw [loadEntry, empty, if_neg]
    exact fun entry => entry.2 rfl

theorem Documented.column {size : Text → ℕ} {widths : List ℕ} {columns : List Text}
    (h : Documented size widths columns) : ∀ w ∈ columns, Word separates w := by
  have fitting := h.fitting
  clear h
  induction fitting with
  | nil => exact fun w member => absurd member List.not_mem_nil
  | cons first _ ih =>
      intro w member
      rcases List.mem_cons.mp member with rfl | later
      · exact first.word
      · exact ih w later

theorem Documented.loaded {size : Text → ℕ} {widths : List ℕ} {columns : List Text}
    (h : Documented size widths columns) (some : columns ≠ []) : loadEntry (lineOf columns) = .some columns := by
  have words := h.column
  have solid : ∀ c ∈ lineOf columns, whitespace c = false := by
    intro c inside
    rcases mem_intercalate inside with rfl | ⟨w, member, letter⟩
    · decide
    · exact (Bool.or_eq_false_iff.mp ((words w member).clean c letter)).1
  have commas : ∀ w ∈ columns, ',' ∉ w := by
    intro w member letter
    exact absurd ((words w member).clean ',' letter) (by decide)
  have nonempty : lineOf columns ≠ [] := by
    obtain ⟨w, rest, rfl⟩ := List.exists_cons_of_ne_nil some
    obtain ⟨c, _, whole⟩ := List.exists_cons_of_ne_nil (words w List.mem_cons_self).nonempty
    exact List.ne_nil_of_mem (mem_intercalate_of_mem ',' List.mem_cons_self (whole ▸ List.mem_cons_self : c ∈ w))
  rw [loadEntry, strip_self solid, if_pos ⟨h.uncommented, nonempty⟩, lineOf, List.splitOn_intercalate ',' commas some]

theorem load_entries {size : Text → ℕ} {lines : List Text} {entries : List TIMETABLE}
    (listed : EntryLines size lines entries) : lines.filterMap loadEntry = entries.map TIMETABLE.columns := by
  induction listed with
  | nil => rfl
  | idle idle _ ih => rw [List.filterMap_cons_none idle.loaded, ih]
  | entry documented _ ih =>
      rw [List.filterMap_cons_some (documented.loaded (List.cons_ne_nil _ _)), ih, List.map_cons]

theorem load_lines {size : Text → ℕ} {lines : List Text} {s : STATION} {entries : List TIMETABLE}
    (listed : TimetableLines size lines s entries) :
    lines ≠ [] ∧ lines.filterMap loadEntry = s.columns :: entries.map TIMETABLE.columns := by
  induction listed with
  | idle idle _ ih => exact ⟨List.cons_ne_nil _ _, by rw [List.filterMap_cons_none idle.loaded, ih.2]⟩
  | station documented listed =>
      refine ⟨List.cons_ne_nil _ _, ?_⟩
      rw [List.filterMap_cons_some (documented.loaded (List.cons_ne_nil _ _)), load_entries listed]

/-! ### Doubling -/

/-- The table has as many slots as doubling gives, and no more than the entries call for. -/
structure Loaded.Doubled (l : Loaded) : Prop where
  room : l.count < l.Timetable.length
  power : ∃ k, l.Timetable.length = 2 ^ k
  tight : l.Timetable.length = 1 ∨ l.Timetable.length ≤ 2 * l.count

theorem Loaded.scan_doubled {junk : TIMETABLE} {l l' : Loaded} {line : Text} (h : l.Doubled)
    (ran : l.scan junk line = .ok l') : l'.Doubled := by
  unfold Loaded.scan at ran
  dsimp only at ran
  obtain ⟨k, power⟩ := h.power
  have room := h.room
  have tight := h.tight
  rw [if_pos room, List.length_modify] at ran
  have size : (l.Timetable.modify l.count (TIMETABLE.fill (scanColumns entryWidths (strdup line)))).length =
      l.Timetable.length := List.length_modify ..
  split at ran
  · split at ran
    · split at ran
      · cases ran
        have twice : (l.Timetable.modify l.count (TIMETABLE.fill (scanColumns entryWidths (strdup line))) ++
            List.replicate l.Timetable.length junk).length = l.Timetable.length + l.Timetable.length := by
          rw [List.length_append, size, List.length_replicate]
        have more : l.count + 1 < l.Timetable.length + l.Timetable.length := by omega
        have half : l.Timetable.length + l.Timetable.length ≤ 2 * (l.count + 1) := by omega
        refine ⟨more.trans_eq twice.symm, ⟨k + 1, ?_⟩, .inr (twice.trans_le half)⟩
        rw [twice, power, Nat.pow_succ, Nat.mul_two]
      · cases ran
    · cases ran
      have more : l.count + 1 < l.Timetable.length := by omega
      have half : l.Timetable.length = 1 ∨ l.Timetable.length ≤ 2 * (l.count + 1) := by omega
      exact ⟨more.trans_eq size.symm, ⟨k, size.trans power⟩, size ▸ half⟩
  · cases ran
    exact ⟨size ▸ room, ⟨k, size.trans power⟩, size ▸ tight⟩

/-- The doubling for the entry of number `2 ^ 30` leaves the `int`. -/
theorem Loaded.scan_full {junk : TIMETABLE} {l : Loaded} {line : Text} (h : l.Doubled) {e : TIMETABLE}
    (scanned : scanColumns entryWidths (strdup line) = e.columns) (full : l.count + 1 = 2 ^ 30) :
    l.scan junk line = .error .overflow := by
  obtain ⟨k, power⟩ := h.power
  have room := h.room
  have tight := h.tight
  have five : e.columns.length = 5 := rfl
  have low : 30 ≤ k := (Nat.pow_le_pow_iff_right (show 1 < 2 by decide)).mp (by omega)
  have high : k < 31 := (Nat.pow_lt_pow_iff_right (show 1 < 2 by decide)).mp (by omega)
  have size : l.Timetable.length = 2 ^ 30 := by rw [power, show k = 30 by omega]
  have past : ¬ 2 * l.Timetable.length ≤ INT_MAX := by
    rw [size]
    decide
  have last : l.count + 1 = l.Timetable.length := full.trans size.symm
  simp only [Loaded.scan, if_pos room, scanned, if_pos five, List.length_modify, if_pos last, if_neg past]

theorem Loaded.read_full {junk : TIMETABLE} {lines : List Text} {entries : List TIMETABLE}
    (listed : EntryLines byteSize lines entries) (clean : ∀ line ∈ lines, Clean line) {chunks : List Text}
    (read : Read lines chunks) {l : Loaded} (h : l.Doubled) (few : l.count < 2 ^ 30)
    (many : 2 ^ 30 ≤ l.count + entries.length) : l.read junk chunks = .error .overflow := by
  induction listed generalizing chunks l with
  | nil =>
      rw [List.length_nil] at many
      omega
  | @idle line lines entries idle _ ih =>
      have later := fun l member => clean l (List.mem_cons_of_mem line member)
      cases read with
      | none read => exact ih later read h few many
      | @line _ tail _ chunks ending read =>
          rw [Loaded.read]
          split
          · exact ih later read h few many
          · rename_i uncommented
            have short := (idle.scanned ending 5 60 [60, 5, 60]).resolve_left uncommented
            have missed : (scanColumns entryWidths (strdup (encode line ++ tail))).length ≠ 5 := by
              intro five
              rw [entryWidths] at five
              omega
            obtain ⟨l', scanned, grows⟩ := Loaded.scan_idle junk h.room missed
            have same : l'.count = l.count := grows.count
            rw [scanned]
            exact ih later read (Loaded.scan_doubled h scanned) (same ▸ few) (same ▸ many)
  | @entry e lines entries documented _ ih =>
      have later := fun l member => clean l (List.mem_cons_of_mem _ member)
      rw [List.length_cons] at many
      have nonempty := documented.line_ne_nil (by decide)
      generalize whole : lineOf e.columns = text at read nonempty
      cases read with
      | none read => exact absurd rfl nonempty
      | @line _ tail _ chunks ending read =>
          subst whole
          have columns := documented.scanned (clean _ List.mem_cons_self) ending
          have encoded : e.columns.map encode = e.encoded.columns := rfl
          rw [encoded] at columns
          rw [Loaded.read, if_neg (documented.uncommented_bytes ending)]
          by_cases full : l.count + 1 = 2 ^ 30
          · rw [Loaded.scan_full h columns full]
            rfl
          · obtain ⟨l', scanned, grows⟩ := Loaded.scan_entry junk h.room columns (by rw [INT_MAX]; omega)
            have one : l'.count = l.count + 1 := grows.count
            rw [scanned]
            exact ih later read (Loaded.scan_doubled h scanned) (by omega) (by omega)

/-- What the C station has read of a file in which everything is measured in bytes. -/
theorem readtimetable_listed (junk : TIMETABLE) (old : STATION) (before : List TIMETABLE) {lines : List Text}
    {s : STATION} {entries : List TIMETABLE} (listed : TimetableLines byteSize lines s entries)
    (short : ∀ line ∈ lines, byteSize line ≤ 254) (newline : ∀ line ∈ lines, '\n' ∉ line)
    (clean : ∀ line ∈ lines, Clean line) (few : entries.length < 2 ^ 30) (ended : Bool) :
    ∃ l, readtimetable junk (some (encode (fileOf lines ended))) old before = .ok l ∧ l.Station = s.encoded ∧
      l.count = entries.length ∧ l.count < l.Timetable.length ∧
      l.Timetable.take l.count = entries.map TIMETABLE.encoded := by
  have pieces : ∀ line ∈ lines, OnePiece line := fun line member =>
    ⟨newline line member, Nat.lt_succ_of_le (short line member)⟩
  have read := read_fileOf pieces ended (load_lines listed).1
  obtain ⟨rest, chunks, entered, clean, read, first⟩ := read_timetable listed clean read old
  have room : (⟨s.encoded, [junk], 0⟩ : Loaded).count < (⟨s.encoded, [junk], 0⟩ : Loaded).Timetable.length := Nat.one_pos
  have fits : 2 * (0 + entries.length) ≤ INT_MAX := by
    rw [INT_MAX]
    omega
  obtain ⟨l, ran, grows⟩ := Loaded.read_entries junk entered clean read room fits
  refine ⟨l, ?_, grows.Station, ?_, grows.room, ?_⟩
  · rw [readtimetable, first]
    exact ran
  · rw [grows.count, List.length_map]
    exact Nat.zero_add _
  · rw [grows.filled, List.take_zero, List.nil_append]

/-! ### One table -/

/-- Both loaders find these entries in the file, and the same texts in them. That the C station reads
the file at all means that it has written nowhere behind its table. -/
def SameTable (junk : TIMETABLE) (old : STATION) (before : List TIMETABLE) (file : Text)
    (entries : List TIMETABLE) : Prop :=
  ∃ l, readtimetable junk (some (encode file)) old before = .ok l ∧ l.count = entries.length ∧
    l.Timetable.take l.count = entries.map TIMETABLE.encoded ∧
    (l.Timetable.take l.count).map TIMETABLE.columns = ((load_timetable (some file)).drop 1).map (·.map encode)

/-- Where everything is measured in bytes, both loaders read the same table. -/
theorem loaders_read_one_table (junk : TIMETABLE) (old : STATION) (before : List TIMETABLE) {lines : List Text}
    {s : STATION} {entries : List TIMETABLE} (listed : TimetableLines byteSize lines s entries)
    (short : ∀ line ∈ lines, byteSize line ≤ 254) (lone : ∀ line ∈ lines, '\n' ∉ line ∧ '\r' ∉ line)
    (clean : ∀ line ∈ lines, Clean line) (few : entries.length < 2 ^ 30) (ended : Bool) :
    SameTable junk old before (fileOf lines ended) entries := by
  obtain ⟨some, loaded⟩ := load_lines listed
  have read := read_fileOf (fun line member => ⟨(lone line member).1, Nat.lt_succ_of_le (short line member)⟩) ended some
  obtain ⟨rest, chunks, entered, clean, read, first⟩ := read_timetable listed clean read old
  have room : (⟨s.encoded, [junk], 0⟩ : Loaded).count < (⟨s.encoded, [junk], 0⟩ : Loaded).Timetable.length := Nat.one_pos
  have fits : 2 * (0 + entries.length) ≤ INT_MAX := by
    rw [INT_MAX]
    omega
  obtain ⟨l, ran, grows⟩ := Loaded.read_entries junk entered clean read room fits
  have filled := grows.filled
  rw [List.take_zero, List.nil_append] at filled
  refine ⟨l, ?_, ?_, filled, ?_⟩
  · rw [readtimetable, first]
    exact ran
  · rw [grows.count, List.length_map]
    exact Nat.zero_add _
  · rw [filled, load_fileOf lone some, loaded, List.drop_one, List.tail_cons, List.map_map, List.map_map]
    rfl

def stationS : STATION := ⟨"S".toList, "1".toList, "2".toList⟩

/-- A bus on some route. -/
def onRoute (route_name : Text) : TIMETABLE where
  departure_time := "08:00".toList
  route_name := route_name
  departing_from := "stop".toList
  arrival_time := "08:20".toList
  arrival_station := "StationB".toList

def unread : TIMETABLE := ⟨[], [], [], [], []⟩

instance (size : Text → ℕ) (limit : ℕ) (s : Text) : Decidable (Column size limit s) :=
  decidable_of_iff (Word separates s ∧ size s ≤ limit) ⟨fun h => ⟨h.1, h.2⟩, fun h => ⟨h.word, h.short⟩⟩

theorem stationS_documented : Documented List.length stationWidths stationS.columns :=
  ⟨.cons (by decide) (.cons (by decide) (.cons (by decide) .nil)), by decide⟩

theorem onRoute_documented {route_name : Text} (column : Column List.length 60 route_name) :
    Documented List.length entryWidths (onRoute route_name).columns := by
  have departure : Column List.length 5 "08:00".toList := by decide
  have stop : Column List.length 60 "stop".toList := by decide
  have arrival : Column List.length 5 "08:20".toList := by decide
  have station : Column List.length 60 "StationB".toList := by decide
  refine ⟨.cons departure (.cons column (.cons stop (.cons arrival (.cons station .nil)))), ?_⟩
  have first : (lineOf (onRoute route_name).columns).head? = some '0' := rfl
  rw [first]
  decide

theorem Documented.bytes {widths : List ℕ} {columns : List Text} (h : Documented List.length widths columns)
    (ascii : ∀ c ∈ lineOf columns, c.toNat < 128) : Documented byteSize widths columns := by
  have columnwise : ∀ w ∈ columns, ∀ c ∈ w, c.toNat < 128 := fun w member c inside =>
    ascii c (mem_intercalate_of_mem ',' member inside)
  refine ⟨?_, h.uncommented⟩
  have fitting := h.fitting
  clear h ascii
  induction fitting with
  | nil => exact .nil
  | @cons width w _ columns first _ ih =>
      have same : byteSize w = w.length := by rw [byteSize, encode_ascii (columnwise w List.mem_cons_self)]
      exact .cons ⟨first.word, same ▸ first.short⟩ (ih fun v member => columnwise v (List.mem_cons_of_mem w member))

/-- ASCII, short and with nothing in it that ends a line or a string. -/
def simple (line : Text) : Bool :=
  line.all (fun c => c.toNat < 128 && c ≠ '\n' && c ≠ '\r' && c ≠ NUL) && line.length ≤ 254

theorem simple_iff {line : Text} : simple line = true ↔ (∀ c ∈ line, c.toNat < 128) ∧ line.length ≤ 254 ∧
    ('\n' ∉ line ∧ '\r' ∉ line) ∧ NUL ∉ line := by
  simp only [simple, Bool.and_eq_true, List.all_eq_true, decide_eq_true_eq]
  constructor
  · rintro ⟨all, short⟩
    exact ⟨fun c member => (all c member).1.1.1, short, ⟨fun member => (all _ member).1.1.2 rfl,
      fun member => (all _ member).1.2 rfl⟩, fun member => (all _ member).2 rfl⟩
  · rintro ⟨ascii, short, ⟨newline, back⟩, nul⟩
    refine ⟨fun c member => ⟨⟨⟨ascii c member, ?_⟩, ?_⟩, ?_⟩, short⟩
    · rintro rfl
      exact newline member
    · rintro rfl
      exact back member
    · rintro rfl
      exact nul member

/-- The same bus so many times. -/
def busLines (n : ℕ) : List Text := lineOf stationS.columns :: List.replicate n (lineOf (onRoute ['b']).columns)

theorem EntryLines.replicate {size : Text → ℕ} {e : TIMETABLE} (documented : Documented size entryWidths e.columns)
    (n : ℕ) : EntryLines size (List.replicate n (lineOf e.columns)) (List.replicate n e) := by
  induction n with
  | zero => exact .nil
  | succ n ih => exact .entry documented ih

theorem busLines_simple {n : ℕ} : ∀ line ∈ busLines n, simple line = true := by
  intro line member
  rcases List.mem_cons.mp member with rfl | entry
  · decide
  · rw [(List.mem_replicate.mp entry).2]
    decide

theorem busLines_listed (n : ℕ) :
    TimetableLines byteSize (busLines n) stationS (List.replicate n (onRoute ['b'])) :=
  .station (stationS_documented.bytes (simple_iff.mp (by decide)).1)
    (.replicate ((onRoute_documented (by decide)).bytes (simple_iff.mp (by decide)).1) n)

/-- A comment, the station, a blank line and a bus, without a newline at the end. -/
def commented : List Text := ["# S".toList, lineOf stationS.columns, " ".toList, lineOf (onRoute ['b']).columns]

theorem commented_is_read_alike : SameTable unread stationS [] (fileOf commented false) [onRoute ['b']] := by
  have all : ∀ line ∈ commented, simple line = true := by decide
  have blank : ∀ c ∈ " ".toList, whitespace c = true := by
    intro c member
    rw [List.mem_singleton.mp member]
    decide
  have station := stationS_documented.bytes (simple_iff.mp (all _ (.tail _ (.head _)))).1
  have entry := (onRoute_documented (by decide)).bytes (simple_iff.mp (all _ (.tail _ (.tail _ (.tail _ (.head _)))))).1
  refine loaders_read_one_table unread stationS [] (.idle (.inl rfl) (.station station (.idle (.inr blank)
    (.entry entry .nil)))) ?_ ?_ ?_ (by decide) false
  · intro line member
    obtain ⟨ascii, short, _⟩ := simple_iff.mp (all line member)
    rwa [byteSize, encode_ascii ascii]
  · exact fun line member => (simple_iff.mp (all line member)).2.2.1
  · exact fun line member => .inr (simple_iff.mp (all line member)).2.2.2

/-- The format, with lengths counted in characters. -/
structure InCharacters (lines : List Text) (entries : List TIMETABLE) : Prop where
  listed : ∃ s, TimetableLines List.length lines s entries
  short : ∀ line ∈ lines, line.length ≤ 254 ∧ '\n' ∉ line

/-- A route of 31 letters that take two bytes each. -/
def wideRoute : List Text := [lineOf stationS.columns, lineOf (onRoute (List.replicate 31 'é')).columns]

/-- A route that a C string cannot hold. -/
def brokenRoute : List Text := [lineOf stationS.columns, lineOf (onRoute ['b', NUL]).columns]

/-- A comment that Python takes for two lines. -/
def brokenComment : List Text := ["# \rbus".toList, lineOf stationS.columns]

/-- A comment whose end `fgets` takes for another line. -/
def wideComment : List Text := [lineOf stationS.columns, '#' :: List.replicate 127 'é' ++ lineOf (onRoute ['b']).columns]

/-- More entries than doubling has room for. -/
def endless : List Text := busLines (2 ^ 30)

theorem endless_overflows : readtimetable unread (some (encode (fileOf endless true))) stationS [] =
    .error .overflow := by
  have clean : ∀ line ∈ endless, Clean line := fun line member => .inr (simple_iff.mp (busLines_simple line member)).2.2.2
  have pieces : ∀ line ∈ endless, OnePiece line := by
    intro line member
    obtain ⟨ascii, short, lone, _⟩ := simple_iff.mp (busLines_simple line member)
    exact ⟨lone.1, by rw [encode_ascii ascii]; exact Nat.lt_succ_of_le short⟩
  obtain ⟨rest, chunks, entered, clean, read, first⟩ :=
    read_timetable (busLines_listed (2 ^ 30)) clean (read_fileOf pieces true (List.cons_ne_nil _ _)) stationS
  have begun : (⟨stationS.encoded, [unread], 0⟩ : Loaded).Doubled := ⟨Nat.one_pos, ⟨0, rfl⟩, .inl rfl⟩
  rw [readtimetable, first]
  refine Loaded.read_full entered clean read begun (by decide) ?_
  rw [List.length_replicate]
  exact Nat.le_add_left _ _

/-- Characters are not bytes, and a line that Python reads need not be one for `fgets`. -/
theorem loaders_differ :
    (InCharacters wideRoute [onRoute (List.replicate 31 'é')] ∧
      ¬ SameTable unread stationS [] (fileOf wideRoute true) [onRoute (List.replicate 31 'é')]) ∧
    (InCharacters brokenRoute [onRoute ['b', NUL]] ∧
      ¬ SameTable unread stationS [] (fileOf brokenRoute true) [onRoute ['b', NUL]]) ∧
    (InCharacters brokenComment [] ∧ ¬ SameTable unread stationS [] (fileOf brokenComment true) []) ∧
    (InCharacters wideComment [] ∧ ¬ SameTable unread stationS [] (fileOf wideComment true) []) ∧
    InCharacters endless (List.replicate (2 ^ 30) (onRoute ['b'])) ∧
      ¬ SameTable unread stationS [] (fileOf endless true) (List.replicate (2 ^ 30) (onRoute ['b'])) := by
  have counted : ∀ {file : Text} {entries : List TIMETABLE} {n : ℕ}, SameTable unread stationS [] file entries →
      (readtimetable unread (some (encode file)) stationS []).map Loaded.count = .ok n → n = entries.length := by
    rintro file entries n ⟨l, ran, count, _⟩ found
    rw [ran] at found
    cases found
    exact count
  have station := stationS_documented
  refine ⟨⟨?_, fun same => ?_⟩, ⟨?_, fun same => ?_⟩, ⟨?_, fun same => ?_⟩, ⟨?_, fun same => ?_⟩, ?_, ?_⟩
  · exact ⟨⟨_, .station station (.entry (onRoute_documented (by decide)) .nil)⟩, by decide⟩
  · have none := counted (n := 0) same (by decide +kernel)
    cases none
  · exact ⟨⟨_, .station station (.entry (onRoute_documented (by decide)) .nil)⟩, by decide⟩
  · have none := counted (n := 0) same (by decide +kernel)
    cases none
  · exact ⟨⟨_, .idle (.inl rfl) (.station station .nil)⟩, by decide⟩
  · obtain ⟨l, _, count, _, rows⟩ := same
    have loaded : (load_timetable (some (fileOf brokenComment true))).drop 1 = [stationS.columns] := by decide +kernel
    rw [loaded, count] at rows
    cases rows
  · exact ⟨⟨_, .station station (.idle (.inl rfl) .nil)⟩, by decide +kernel⟩
  · have one := counted (n := 1) same (by decide +kernel)
    cases one
  · exact ⟨⟨_, .station station (.replicate (onRoute_documented (by decide)) _)⟩,
      fun line member => (simple_iff.mp (busLines_simple line member)).2.imp id fun rest => rest.1.1⟩
  · rintro ⟨l, ran, _⟩
    rw [endless_overflows] at ran
    cases ran

end TransitNet
