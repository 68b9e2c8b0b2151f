import TransitNet.Buses
import TransitNet.Loaders

/-! The files that the generator of networks leaves for the stations, and what the stations read of them. -/
namespace TransitNet
namespace Generator
open Rounding Words Utf8

variable {n : ℕ}

def MIN_NODES : ℕ := 2

def MAX_NODES : ℕ := 26 * 26

/-- `type0` has been drawn. -/
def nodetype (type0 : ℕ) (i : Fin n) : Text :=
  match (i.val + type0) % 4 with
  | 0 => "Station".toList
  | 1 => "Terminal".toList
  | 2 => "Junction".toList
  | _ => "Busport".toList

def letter (k : ℕ) : Char := Char.ofNat ('A'.toNat + k % 26)

def nodename (i : Fin n) : Text := if n < 26 then [letter i] else [letter i, letter (i / 26)]

/-- What `main` leaves behind: the matrix, where the stations are, and the timetables in the order in
which they are written. -/
structure Output (n : ℕ) where
  type0 : ℕ
  adj : Adjacency n
  places : Places n
  timetables : List (Fin n × List (Bus n))

/-- With `lflag` the network is a line. -/
def routes [NeZero n] (lflag : Bool) (rand : ℕ → ℕ) (passes t : ℕ) : Option (Adjacency n × ℕ) :=
  if lflag then some (build_linear_routes new2D, t) else build_routes rand passes t new2D

/-- `main` for `N` stations, if every loop ends within so many passes. -/
def main [NeZero n] (hours : Hours) (lflag : Bool) (rand : ℕ → ℕ) (passes : ℕ) : Option (Output n) :=
  if n < MIN_NODES ∨ MAX_NODES < n then none
  else
    let type0 := rand 0 % 10
    match routes lflag rand passes 1 with
    | none => none
    | some (adj, t) =>
        (build_timetables rand hours adj (places rand t) passes (List.finRange n) (t + 2 * n)).map fun r =>
          ⟨type0, adj, places rand t, r.1⟩

/-! ### What is printed -/

/-- Four places behind the point. -/
def decimals (k : ℕ) : Text := Nat.toDigits 10 (k / 10000) ++ '.' :: (twoDigits (k / 100 % 100) ++ twoDigits (k % 100))

/-- `%.4f` -/
def fixed (q : ℚ) : Text := (if q < 0 then ['-'] else []) ++ decimals (roundEven (|q| * 10000)).toNat

namespace Output
variable (out : Output n)

def station (i : Fin n) : Text := nodetype out.type0 i ++ nodename i

/-- `"%02i:%02i,bus%s_%s,stop%s,%02i:%02i,%s%s\n"` -/
def row (i : Fin n) (b : Bus n) : TIMETABLE where
  departure_time := clock (b.departs / 60) (b.departs % 60)
  route_name := "bus".toList ++ nodename i ++ ['_'] ++ nodename b.j
  departing_from := "stop".toList ++ nodename i
  arrival_time := clock (b.arrives / 60) (b.arrives % 60)
  arrival_station := out.station b.j

/-- `"%s%s,%.4f,%.4f\n"` -/
def heading (i : Fin n) : STATION where
  station_name := out.station i
  longitude := fixed (out.places.x i)
  latitude := fixed (out.places.y i)

def lines (i : Fin n) (timetable : List (Bus n)) : List Text :=
  "# station-name,longitude,latitude".toList :: lineOf (out.heading i).columns ::
    "# departure-time,route-name,departing-from,arrival-time,arrival-station".toList ::
      timetable.map fun b => lineOf (out.row i b).columns

/-- The name of the file, and what is in it. -/
def file (i : Fin n) (timetable : List (Bus n)) : Text × Text :=
  ("tt-".toList ++ out.station i, fileOf (out.lines i timetable) true)

end Output

/-! ### Letters, digits and little else -/

/-- From the hyphen to `z`, among which are all digits and letters. -/
def printable (c : Char) : Bool := 45 ≤ c.toNat && c.toNat ≤ 122 && c ≠ ';'

structure Plain (limit : ℕ) (s : Text) : Prop where
  nonempty : s ≠ []
  printable : ∀ c ∈ s, printable c = true
  short : s.length ≤ limit

theorem printable_iff {c : Char} : printable c = true ↔ (45 ≤ c.toNat ∧ c.toNat ≤ 122) ∧ c ≠ ';' := by
  simp only [printable, Bool.and_eq_true, decide_eq_true_eq]

theorem printable_separates {c : Char} (h : printable c = true) : separates c = false := by
  obtain ⟨⟨low, high⟩, _⟩ := printable_iff.mp h
  have comma : c ≠ ',' := by
    rintro rfl
    exact absurd low (by decide)
  simp only [separates, whitespace, Bool.or_eq_false_iff, decide_eq_false_iff_not, List.mem_cons, List.not_mem_nil,
    or_false]
  exact ⟨by omega, comma⟩

theorem printable_digit {c : Char} (h : c.isDigit = true) : printable c = true := by
  have bounds : 48 ≤ c.toNat ∧ c.toNat ≤ 57 := by
    simp only [Char.isDigit, Bool.and_eq_true, decide_eq_true_eq] at h
    exact h
  rw [printable_iff]
  refine ⟨by omega, ?_⟩
  rintro rfl
  exact absurd bounds.2 (by decide)

theorem printable_letter (k : ℕ) : printable (letter k) = true := by
  have all : ∀ k < 26, printable (Char.ofNat ('A'.toNat + k)) = true := by decide
  exact all (k % 26) (Nat.mod_lt k (by decide))

namespace Plain
variable {limit limit' : ℕ} {s t : Text}

theorem of_all (nonempty : s ≠ []) (all : s.all TransitNet.Generator.printable = true) (short : s.length ≤ limit) :
    Plain limit s :=
  ⟨nonempty, List.all_eq_true.mp all, short⟩

theorem mono (plain : Plain limit s) (le : limit ≤ limit') : Plain limit' s :=
  ⟨plain.nonempty, plain.printable, plain.short.trans le⟩

theorem append (plain : Plain limit s) (plain' : Plain limit' t) : Plain (limit + limit') (s ++ t) where
  nonempty := List.append_ne_nil_of_left_ne_nil plain.nonempty t
  printable c member := (List.mem_append.mp member).elim (plain.printable c) (plain'.printable c)
  short := by
    rw [List.length_append]
    exact Nat.add_le_add plain.short plain'.short

theorem column (plain : Plain limit s) : Column List.length limit s :=
  ⟨⟨plain.nonempty, fun c member => printable_separates (plain.printable c member)⟩, plain.short⟩

theorem ascii (plain : Plain limit s) : ∀ c ∈ s, c.toNat < 128 := fun c member =>
  Nat.lt_succ_of_le ((printable_iff.mp (plain.printable c member)).1.2.trans (by decide))

theorem token (plain : Plain limit s) : Token ' ' limit s := by
  refine ⟨⟨plain.nonempty, fun c member => ?_⟩, plain.short⟩
  have low := (printable_iff.mp (plain.printable c member)).1.1
  rw [Bool.or_eq_false_iff, decide_eq_false_iff_not, decide_eq_false_iff_not]
  constructor <;> rintro rfl <;> exact absurd low (by decide)

end Plain

theorem twoDigits_plain {k : ℕ} (small : k < 100) : Plain 2 (twoDigits k) :=
  ⟨List.cons_ne_nil _ _, fun _ member => printable_digit (twoDigits_digit small member), Nat.le_refl 2⟩

theorem clock_plain {hours minutes : ℕ} (h : hours < 100) (m : minutes < 100) : Plain 5 (clock hours minutes) := by
  have colon : Plain 1 [':'] := .of_all (List.cons_ne_nil _ _) (by decide) (Nat.le_refl 1)
  exact (twoDigits_plain h).append (colon.append (twoDigits_plain m))

theorem nodename_plain (i : Fin n) : Plain 2 (nodename i) := by
  unfold nodename
  split
  · refine ⟨List.cons_ne_nil _ _, fun c member => ?_, Nat.le_succ 1⟩
    rw [List.mem_singleton.mp member]
    exact printable_letter i
  · refine ⟨List.cons_ne_nil _ _, fun c member => ?_, Nat.le_refl 2⟩
    rcases List.mem_cons.mp member with rfl | later
    · exact printable_letter i
    · rw [List.mem_singleton.mp later]
      exact printable_letter (i / 26)

theorem nodetype_plain (type0 : ℕ) (i : Fin n) : Plain 8 (nodetype type0 i) := by
  unfold nodetype
  split <;> exact .of_all (by decide) (by decide) (by decide)

theorem length_nodename (i : Fin n) : (nodename i).length = if n < 26 then 1 else 2 := by
  unfold nodename
  split <;> rfl

theorem letter_inj {k k' : ℕ} (same : letter k = letter k') : k % 26 = k' % 26 := by
  have all : ∀ k < 26, (Char.ofNat ('A'.toNat + k)).toNat = 65 + k := by decide
  have value : ∀ k, (letter k).toNat = 65 + k % 26 := fun k => all (k % 26) (Nat.mod_lt k (by decide))
  have numbers := congrArg Char.toNat same
  rw [value, value] at numbers
  omega

/-- Up to `MAX_NODES` no two stations have the same name. -/
theorem nodename_injective (few : n ≤ MAX_NODES) : Function.Injective (nodename (n := n)) := by
  intro i j same
  have bound := i.isLt
  have bound' := j.isLt
  unfold nodename at same
  split at same
  · have first := letter_inj (List.cons.inj same).1
    exact Fin.ext (by omega)
  · obtain ⟨first, second⟩ := List.cons.inj same
    have first := letter_inj first
    have second := letter_inj (List.cons.inj second).1
    unfold MAX_NODES at few
    exact Fin.ext (by omega)

namespace Output
variable (out : Output n)

theorem station_plain (i : Fin n) : Plain 10 (out.station i) := (nodetype_plain out.type0 i).append (nodename_plain i)

theorem station_injective (few : n ≤ MAX_NODES) : Function.Injective out.station := by
  intro i j same
  have lengths : (nodename i).length = (nodename j).length := by rw [length_nodename, length_nodename]
  exact nodename_injective few (List.append_inj_right' same lengths)

end Output

/-! ### Coordinates -/

theorem decimals_plain {k : ℕ} (small : k < 10 ^ 7) : Plain 8 (decimals k) := by
  have front : Plain 3 (Nat.toDigits 10 (k / 10000)) :=
    ⟨Nat.toDigits_ne_nil, fun _ member => printable_digit (toDigits_digit member),
      (Nat.length_toDigits_le_iff (by decide) (by decide)).mpr (by omega)⟩
  have point : Plain 1 ['.'] := .of_all (List.cons_ne_nil _ _) (by decide) (Nat.le_refl 1)
  exact front.append (point.append ((twoDigits_plain (by omega)).append (twoDigits_plain (by omega))))

theorem fixed_plain {q : ℚ} {k : ℕ} (near : Near (1 / 10 ^ 5) (|q| * 10000) k) (small : k < 10 ^ 7) :
    Plain 9 (fixed q) := by
  have rounded : roundEven (|q| * 10000) = k := Near.roundEven (k := k) near (by norm_num)
  rw [fixed, rounded, Int.toNat_natCast]
  split
  · have minus : Plain 1 ['-'] := .of_all (List.cons_ne_nil _ _) (by decide) (Nat.le_refl 1)
    exact minus.append (decimals_plain small)
  · exact (decimals_plain small).mono (by decide)

theorem longitude_plain (r : ℕ) : Plain 9 (fixed (RANDOM_LON r)) := by
  have bound := Nat.mod_lt r (show 0 < 40 by decide)
  have near := (near_RANDOM_LON r).abs.mul (k := 10000) (by norm_num)
  have exact : |(1158 / 10 + (r % 40 : ℕ) / 100 : ℚ)| * 10000 = ((11580 + r % 40) * 100 : ℕ) := by
    rw [abs_of_nonneg (by positivity)]
    push_cast
    ring
  rw [exact] at near
  exact fixed_plain (near.mono (by norm_num)) (by omega)

theorem latitude_plain (r : ℕ) : Plain 9 (fixed (RANDOM_LAT r)) := by
  have bound := Nat.mod_lt r (show 0 < 40 by decide)
  obtain ⟨low, high⟩ := rand_mod_40 r
  have near := (near_RANDOM_LAT r).abs.mul (k := 10000) (by norm_num)
  have exact : |(-(319 / 10) + (r % 40 : ℕ) / 100 : ℚ)| * 10000 = ((3190 - r % 40) * 100 : ℕ) := by
    rw [abs_of_neg (by linarith), Nat.cast_mul, Nat.cast_sub (by omega)]
    push_cast
    ring
  rw [exact] at near
  exact fixed_plain (near.mono (by norm_num)) (by omega)

/-! ### Lines -/

section Line
variable {widths : List ℕ} {columns : List Text}

theorem plain_of_mem (fit : List.Forall₂ Plain widths columns) {w : Text} (member : w ∈ columns) :
    ∃ width, Plain width w := by
  induction fit with
  | nil => cases member
  | @cons width _ _ _ plain _ ih =>
      rcases List.mem_cons.mp member with rfl | later
      · exact ⟨width, plain⟩
      · exact ih later

theorem mem_lineOf (fit : List.Forall₂ Plain widths columns) {c : Char} (member : c ∈ lineOf columns) :
    c = ',' ∨ printable c = true := by
  rcases mem_intercalate member with rfl | ⟨w, listed, inside⟩
  · exact .inl rfl
  · obtain ⟨_, plain⟩ := plain_of_mem fit listed
    exact .inr (plain.printable c inside)

theorem plain_documented (fit : List.Forall₂ Plain widths columns) : Documented byteSize widths columns := by
  have characters : Documented List.length widths columns := by
    refine ⟨fit.imp fun _ _ plain => plain.column, fun comment => ?_⟩
    rcases mem_lineOf fit (List.mem_of_mem_head? comment) with comma | plain
    · exact absurd comma (by decide)
    · exact absurd plain (by decide)
  refine characters.bytes fun c member => ?_
  rcases mem_lineOf fit member with rfl | plain
  · decide
  · exact Nat.lt_succ_of_le ((printable_iff.mp plain).1.2.trans (by decide))

theorem encode_plain (fit : List.Forall₂ Plain widths columns) {w : Text} (member : w ∈ columns) : encode w = w := by
  obtain ⟨_, plain⟩ := plain_of_mem fit member
  exact encode_ascii plain.ascii

theorem length_lineOf (fit : List.Forall₂ Plain widths columns) :
    (lineOf columns).length ≤ widths.sum + widths.length := by
  induction fit with
  | nil => exact Nat.zero_le _
  | @cons width w widths columns plain fit ih =>
      have short := plain.short
      cases fit with
      | nil =>
          rw [lineOf, List.intercalate_singleton, List.sum_cons, List.length_cons]
          omega
      | cons =>
          rw [lineOf, List.intercalate_cons_cons, List.length_append, List.length_append, List.length_singleton,
            List.sum_cons, List.length_cons]
          rw [lineOf] at ih
          omega

theorem simple_lineOf (fit : List.Forall₂ Plain widths columns) (short : widths.sum + widths.length ≤ 254) :
    simple (lineOf columns) = true := by
  have bounds : ∀ c ∈ lineOf columns, 44 ≤ c.toNat ∧ c.toNat < 128 := by
    intro c member
    rcases mem_lineOf fit member with rfl | plain
    · decide
    · have range := (printable_iff.mp plain).1
      omega
  have absent : ∀ c : Char, c.toNat < 44 → c ∉ lineOf columns := by
    intro c low member
    exact absurd low (Nat.not_lt_of_le (bounds c member).1)
  rw [simple_iff]
  exact ⟨fun c member => (bounds c member).2, (length_lineOf fit).trans short,
    ⟨absent '\n' (by decide), absent '\r' (by decide)⟩, absent NUL (by decide)⟩

end Line

theorem build_timetables_service [NeZero n] {rand : ℕ → ℕ} {hours : Hours} {adj : Adjacency n} {p : Places n}
    {passes t : ℕ} {is : List (Fin n)} {r : List (Fin n × List (Bus n)) × ℕ}
    (printed : build_timetables rand hours adj p passes is t = some r) : r.1.map Prod.fst = is ∧
      ∀ e ∈ r.1, Service hours.tlast adj p e.1 (60 / neighbours adj e.1) (hours.opening + neighbours adj e.1) e.2 := by
  induction is generalizing t r with
  | nil =>
      cases printed
      exact ⟨rfl, fun e none => absurd none List.not_mem_nil⟩
  | cons i is ih =>
      rw [build_timetables] at printed
      split at printed
      · cases printed
      · rename_i timetable t' first
        obtain ⟨rest, later, rfl⟩ := Option.map_eq_some_iff.mp printed
        obtain ⟨stations, served⟩ := ih later
        refine ⟨congrArg (List.cons i) stations, List.forall_mem_cons.mpr ⟨?_, served⟩⟩
        unfold build_timetable at first
        dsimp only at first
        split at first
        · cases first
        · exact buses_service first

namespace Output
variable (out : Output n)

/-- What every run leaves behind. -/
structure Sound (hours : Hours) : Prop where
  many : MIN_NODES ≤ n
  few : n ≤ MAX_NODES
  undirected : Undirected out.adj
  connected : Connected out.adj
  scattered : ∃ rand t, out.places = Generator.places rand t
  listed : out.timetables.map Prod.fst = List.finRange n
  served : ∀ e ∈ out.timetables, Service hours.tlast out.adj out.places e.1 (60 / neighbours out.adj e.1)
    (hours.opening + neighbours out.adj e.1) e.2

variable {out}

theorem heading_fits (scattered : ∃ rand t, out.places = Generator.places rand t) (i : Fin n) :
    List.Forall₂ Plain stationWidths (out.heading i).columns := by
  obtain ⟨rand, t, same⟩ := scattered
  have x : out.places.x i = RANDOM_LON (rand (t + 2 * i)) := by rw [same, Generator.places]
  have y : out.places.y i = RANDOM_LAT (rand (t + 2 * i + 1)) := by rw [same, Generator.places]
  refine .cons ((out.station_plain i).mono (by decide)) (.cons ?_ (.cons ?_ .nil))
  · rw [heading, x]
    exact (longitude_plain _).mono (by decide)
  · rw [heading, y]
    exact (latitude_plain _).mono (by decide)

theorem row_fits (out : Output n) (i : Fin n) {b : Bus n} (departs : b.departs < 1440) (arrives : b.arrives < 1440) :
    List.Forall₂ Plain entryWidths (out.row i b).columns := by
  have bus : Plain 3 "bus".toList := .of_all (by decide) (by decide) (by decide)
  have stop : Plain 4 "stop".toList := .of_all (by decide) (by decide) (by decide)
  have dash : Plain 1 ['_'] := .of_all (by decide) (by decide) (by decide)
  have name := nodename_plain i
  have route := ((bus.append name).append dash).append (nodename_plain b.j)
  refine .cons (clock_plain (by omega) (by omega)) (.cons (route.mono (by decide)) (.cons
    ((stop.append name).mono (by decide)) (.cons (clock_plain (by omega) (by omega)) (.cons ?_ .nil))))
  exact (out.station_plain b.j).mono (by decide)

end Output

/-- Whatever the numbers are that `rand()` returns. -/
theorem main_sound [NeZero n] {hours : Hours} {lflag : Bool} {rand : ℕ → ℕ} {passes : ℕ} {out : Output n}
    (ran : main hours lflag rand passes = some out) : out.Sound hours := by
  unfold main at ran
  split at ran
  · cases ran
  · rename_i bounds
    rw [not_or, Nat.not_lt, Nat.not_lt] at bounds
    dsimp only at ran
    split at ran
    · cases ran
    · rename_i adj t built
      obtain ⟨r, printed, rfl⟩ := Option.map_eq_some_iff.mp ran
      obtain ⟨listed, served⟩ := build_timetables_service printed
      obtain ⟨undirected, connected⟩ : Undirected adj ∧ Connected adj := by
        unfold routes at built
        split at built
        · cases built
          exact build_linear_routes_connected bounds.1
        · exact ⟨(build_routes_sound built).1, (build_routes_sound built).2.1⟩
      exact ⟨bounds.1, bounds.2, undirected, connected, ⟨rand, t, rfl⟩, listed, served⟩

/-! ### The timetables -/

theorem neighbours_pos {adj : Adjacency n} (connected : Connected adj) (i : Fin n) : 0 < neighbours adj i := by
  obtain ⟨j, linked⟩ : ∃ j, adj i j = true := by
    rcases Relation.TransGen.head'_iff.mp (connected i i) with ⟨j, linked, _⟩
    exact ⟨j, linked⟩
  exact List.countP_pos_iff.mpr ⟨j, List.mem_finRange j, linked⟩

theorem neighbours_le (adj : Adjacency n) (i : Fin n) : neighbours adj i ≤ n := by
  have le := List.countP_le_length (p := fun j => adj i j) (l := List.finRange n)
  rwa [List.length_finRange] at le

namespace Output

/-- A timetable of `i` that runs all day long: it goes to neighbours only, no bus overtakes another
to the same station, and there is always a next one soon. -/
structure Serves (out : Output n) (hours : Hours) (i : Fin n) (timetable : List (Bus n)) : Prop where
  onward : ∀ b ∈ timetable, out.adj i b.j = true
  first : (timetable.map Bus.departs).head? = some (hours.opening + neighbours out.adj i)
  clocked : ∀ b ∈ timetable, b.departs < hours.tlast ∧ b.departs ≤ b.arrives ∧ b.arrives < 24 * 60
  ordered : timetable.Pairwise fun b c => b.departs < c.departs ∧ (b.j = c.j → b.arrives < c.arrives)
  frequent : ∀ m, hours.opening + neighbours out.adj i ≤ m → m + (60 / neighbours out.adj i + 8) < hours.tlast →
    ∃ b ∈ timetable, m ≤ b.departs ∧ b.departs ≤ m + (60 / neighbours out.adj i + 8)

variable {out : Output n} {hours : Hours}

theorem Sound.serves (sound : out.Sound hours) {e : Fin n × List (Bus n)} (member : e ∈ out.timetables) :
    out.Serves hours e.1 e.2 := by
  have service := sound.served e member
  obtain ⟨rand, t, same⟩ := sound.scattered
  rw [same] at service
  have day : hours.tlast ≤ 1440 := hours.day.trans (by decide)
  have early := service.early
  have rides := service.rides rand t day
  refine ⟨fun b inside => (early b inside).2.2, ?_, fun b inside => ?_, ?_, fun m => service.frequent⟩
  · have opens : hours.opening + neighbours out.adj e.1 < hours.tlast := by
      have few := (neighbours_le out.adj e.1).trans sound.few
      have before := hours.early
      unfold MAX_NODES at few
      omega
    generalize e.2 = bs at service
    cases service with
    | done late => exact absurd opens (Nat.not_lt_of_le late)
    | bus => rfl
  · have ride := rides b inside
    have late := hours.day
    have far := hundredths_le rand t e.1 b.j
    refine ⟨(early b inside).2.1, ride.1, ?_⟩
    have before := (early b inside).2.1
    omega
  · refine (service.ordered rand t day).imp fun {b c} both => ⟨?_, both.2⟩
    exact Nat.lt_of_le_of_lt (Nat.le_add_right _ _) (Nat.lt_of_succ_lt (Nat.lt_of_succ_le both.1))

theorem Sound.timetable (sound : out.Sound hours) (i : Fin n) : ∃ timetable, (i, timetable) ∈ out.timetables := by
  have member : i ∈ out.timetables.map Prod.fst := by
    rw [sound.listed]
    exact List.mem_finRange i
  obtain ⟨⟨j, timetable⟩, inside, rfl⟩ := List.mem_map.mp member
  exact ⟨timetable, inside⟩

/-- Each station has one timetable only. -/
theorem Sound.single (sound : out.Sound hours) {i : Fin n} {timetable timetable' : List (Bus n)}
    (member : (i, timetable) ∈ out.timetables) (member' : (i, timetable') ∈ out.timetables) :
    timetable' = timetable := by
  have once : (out.timetables.map Prod.fst).Nodup := by
    rw [sound.listed]
    exact List.nodup_finRange n
  exact (Prod.mk.inj (List.inj_on_of_nodup_map once member' member rfl)).2

end Output

/-- The generator writes one timetable for each station, and every one of them runs all day long. -/
theorem generated_timetables_serve [NeZero n] {hours : Hours} {lflag : Bool} {rand : ℕ → ℕ} {passes : ℕ}
    {out : Output n} (ran : main hours lflag rand passes = some out) (i : Fin n) :
    ∃ timetable, (∀ other, (i, other) ∈ out.timetables ↔ other = timetable) ∧ out.Serves hours i timetable := by
  have sound := main_sound ran
  obtain ⟨timetable, member⟩ := sound.timetable i
  refine ⟨timetable, fun other => ⟨fun member' => sound.single member member', ?_⟩, sound.serves member⟩
  rintro rfl
  exact member

set_option maxRecDepth 10000 in
theorem coins_run : ∃ out : Output 2, main fromSix false coins 200 = some out :=
  Option.isSome_iff_exists.mp (by decide +kernel)

theorem coins_serve : ∃ out : Output 2, main fromSix false coins 200 = some out ∧
    ∃ timetable, (∀ other, (0, other) ∈ out.timetables ↔ other = timetable) ∧ out.Serves fromSix 0 timetable := by
  obtain ⟨out, ran⟩ := coins_run
  exact ⟨out, ran, generated_timetables_serve ran 0⟩

/-! ### The files -/

namespace Output
variable {out : Output n} {hours : Hours} {i : Fin n} {timetable : List (Bus n)}

theorem Serves.row_fits (serves : out.Serves hours i timetable) {b : Bus n} (member : b ∈ timetable) :
    List.Forall₂ Plain entryWidths (out.row i b).columns := by
  obtain ⟨_, leaves, arrives⟩ := serves.clocked b member
  exact out.row_fits i (leaves.trans_lt arrives) arrives

theorem Serves.listed (serves : out.Serves hours i timetable)
    (scattered : ∃ rand t, out.places = Generator.places rand t) :
    TimetableLines byteSize (out.lines i timetable) (out.heading i) (timetable.map (out.row i)) := by
  have rows : EntryLines byteSize (timetable.map fun b => lineOf (out.row i b).columns) (timetable.map (out.row i)) := by
    have fits := fun b member => serves.row_fits (b := b) member
    clear serves
    induction timetable with
    | nil => exact .nil
    | cons b timetable ih =>
        exact .entry (plain_documented (fits b List.mem_cons_self)) (ih fun c member => fits c (List.mem_cons_of_mem b member))
  exact .idle (.inl rfl) (.station (plain_documented (heading_fits scattered i)) (.idle (.inl rfl) rows))

theorem Serves.simple_lines (serves : out.Serves hours i timetable)
    (scattered : ∃ rand t, out.places = Generator.places rand t) :
    ∀ line ∈ out.lines i timetable, simple line = true := by
  have headings : simple "# station-name,longitude,latitude".toList = true ∧
      simple "# departure-time,route-name,departing-from,arrival-time,arrival-station".toList = true := by decide
  refine List.forall_mem_cons.mpr ⟨headings.1, List.forall_mem_cons.mpr
    ⟨simple_lineOf (heading_fits scattered i) (by decide), List.forall_mem_cons.mpr ⟨headings.2, ?_⟩⟩⟩
  intro line member
  obtain ⟨b, inside, rfl⟩ := List.mem_map.mp member
  exact simple_lineOf (serves.row_fits inside) (by decide)

end Output

theorem encoded_row {e : TIMETABLE} (fits : List.Forall₂ Plain entryWidths e.columns) : e.encoded = e := by
  have same := fun w member => encode_plain fits (w := w) member
  cases e
  simp only [TIMETABLE.columns, List.forall_mem_cons] at same
  obtain ⟨departure_time, route_name, departing_from, arrival_time, arrival_station, _⟩ := same
  simp only [TIMETABLE.encoded, departure_time, route_name, departing_from, arrival_time, arrival_station]

theorem encoded_heading {s : STATION} (fits : List.Forall₂ Plain stationWidths s.columns) : s.encoded = s := by
  have same := fun w member => encode_plain fits (w := w) member
  cases s
  simp only [STATION.columns, List.forall_mem_cons] at same
  obtain ⟨station_name, longitude, latitude, _⟩ := same
  simp only [STATION.encoded, station_name, longitude, latitude]

namespace Output
variable {out : Output n} {hours : Hours} {i : Fin n} {timetable : List (Bus n)}

theorem Sound.length_le (sound : out.Sound hours) (member : (i, timetable) ∈ out.timetables) :
    timetable.length < 2 ^ 30 := by
  have service := (sound.served _ member).length_le
  have day := hours.day
  dsimp only at service
  omega

/-- What the C station has read of the file. -/
theorem Sound.read (sound : out.Sound hours) (member : (i, timetable) ∈ out.timetables) (junk : TIMETABLE)
    (old : STATION) (before : List TIMETABLE) :
    ∃ l, readtimetable junk (some (encode (out.file i timetable).2)) old before = .ok l ∧
      l.Station = out.heading i ∧ l.count = timetable.length ∧ l.count < l.Timetable.length ∧
      l.Timetable.take l.count = timetable.map (out.row i) := by
  have serves := sound.serves member
  have simple := serves.simple_lines sound.scattered
  have few : (timetable.map (out.row i)).length < 2 ^ 30 := by
    rw [List.length_map]
    exact sound.length_le member
  obtain ⟨l, ran, station, count, room, filled⟩ := readtimetable_listed junk old before
    (serves.listed sound.scattered)
    (fun line inside => by
      obtain ⟨ascii, short, _⟩ := simple_iff.mp (simple line inside)
      rwa [byteSize, encode_ascii ascii])
    (fun line inside => (simple_iff.mp (simple line inside)).2.2.1.1)
    (fun line inside => .inr (simple_iff.mp (simple line inside)).2.2.2) few true
  refine ⟨l, ran, ?_, ?_, room, ?_⟩
  · rw [station, encoded_heading (heading_fits sound.scattered i)]
  · rw [count, List.length_map]
  · rw [filled, List.map_map]
    exact List.map_congr_left fun b inside => encoded_row (serves.row_fits inside)

/-- What the Python station has read of it. -/
theorem Sound.load (sound : out.Sound hours) (member : (i, timetable) ∈ out.timetables) :
    load_timetable (some (out.file i timetable).2) =
      (out.heading i).columns :: timetable.map fun b => (out.row i b).columns := by
  have serves := sound.serves member
  obtain ⟨nonempty, loaded⟩ := load_lines (serves.listed sound.scattered)
  have lone : ∀ line ∈ out.lines i timetable, '\n' ∉ line ∧ '\r' ∉ line := fun line inside =>
    (simple_iff.mp (serves.simple_lines sound.scattered line inside)).2.2.1
  rw [file, load_fileOf lone nonempty, loaded, List.map_map]
  rfl

end Output

/-- Both programs read the files that the generator writes, and read the same table: what has been
drawn, in the order in which it has been drawn. -/
theorem generated_files_are_read_alike [NeZero n] {hours : Hours} {lflag : Bool} {rand : ℕ → ℕ} {passes : ℕ}
    {out : Output n} (ran : main hours lflag rand passes = some out) {i : Fin n} {timetable : List (Bus n)}
    (member : (i, timetable) ∈ out.timetables) (junk : TIMETABLE) (old : STATION) (before : List TIMETABLE) :
    (∃ l, readtimetable junk (some (encode (out.file i timetable).2)) old before = .ok l ∧
      l.Station = out.heading i ∧ l.count = timetable.length ∧ l.count < l.Timetable.length ∧
      l.Timetable.take l.count = timetable.map (out.row i)) ∧
    load_timetable (some (out.file i timetable).2) =
      (out.heading i).columns :: timetable.map fun b => (out.row i b).columns :=
  ⟨(main_sound ran).read member junk old before, (main_sound ran).load member⟩

theorem coins_are_read_alike : ∃ out : Output 2, main fromSix false coins 200 = some out ∧ ∃ timetable,
    (0, timetable) ∈ out.timetables ∧ load_timetable (some (out.file 0 timetable).2) =
      (out.heading 0).columns :: timetable.map fun b => (out.row 0 b).columns := by
  obtain ⟨out, ran⟩ := coins_run
  obtain ⟨timetable, member⟩ := (main_sound ran).timetable 0
  exact ⟨out, ran, timetable, member, (generated_files_are_read_alike ran member ⟨[], [], [], [], []⟩ ⟨[], [], []⟩ []).2⟩

/-! ### When the generator ends -/

section Ends
variable [NeZero n] {rand : ℕ → ℕ} {hours : Hours} {adj : Adjacency n} {p : Places n}

theorem build_timetable_mono {passes passes' t : ℕ} {i : Fin n} {r : List (Bus n) × ℕ}
    (printed : build_timetable rand hours adj p passes t i = some r) (le : passes ≤ passes') :
    build_timetable rand hours adj p passes' t i = some r := by
  unfold build_timetable at printed ⊢
  dsimp only at printed ⊢
  split at printed
  · cases printed
  · rename_i some
    rw [if_neg some]
    exact buses_mono printed le

theorem build_timetables_mono {passes passes' t : ℕ} {is : List (Fin n)} {r : List (Fin n × List (Bus n)) × ℕ}
    (printed : build_timetables rand hours adj p passes is t = some r) (le : passes ≤ passes') :
    build_timetables rand hours adj p passes' is t = some r := by
  induction is generalizing t r with
  | nil => exact printed
  | cons i is ih =>
      rw [build_timetables] at printed ⊢
      split at printed
      · cases printed
      · rename_i timetable t' first
        obtain ⟨rest, later, rfl⟩ := Option.map_eq_some_iff.mp printed
        rw [build_timetable_mono first le]
        dsimp only
        rw [ih later]
        rfl

theorem build_timetables_end (fair : Fair n rand) (connected : Connected adj) (is : List (Fin n)) (t : ℕ) :
    ∃ passes r, build_timetables rand hours adj p passes is t = some r := by
  induction is generalizing t with
  | nil => exact ⟨0, _, rfl⟩
  | cons i is ih =>
      have some := neighbours_pos connected i
      obtain ⟨j, _, linked⟩ := List.countP_pos_iff.mp some
      have rich : ∀ t, ∃ k, adj i (Fin.ofNat n (rand (t + k))) = true := by
        intro t
        obtain ⟨k, drew⟩ := fair t j j
        refine ⟨2 * k, ?_⟩
        rw [show Fin.ofNat n (rand (t + 2 * k)) = j from congrArg Prod.fst drew]
        exact linked
      obtain ⟨passes, ⟨timetable, t'⟩, first⟩ : ∃ passes r, buses rand hours.tlast adj p i (60 / neighbours adj i)
          passes t (hours.opening + neighbours adj i) = .some r := buses_end rich t _
      obtain ⟨passes', r, later⟩ := ih t'
      have begun : build_timetable rand hours adj p passes t i = .some (timetable, t') := by
        unfold build_timetable
        dsimp only
        rw [if_neg some.ne']
        exact first
      refine ⟨max passes passes', ?_⟩
      rw [build_timetables, build_timetable_mono begun (Nat.le_max_left passes passes')]
      dsimp only
      rw [build_timetables_mono later (Nat.le_max_right passes passes')]
      exact ⟨_, rfl⟩

theorem routes_end (fair : Fair n rand) (two : 2 ≤ n) (lflag : Bool) (t : ℕ) : ∃ passes, ∃ (adj : Adjacency n) (t' : ℕ),
    Connected adj ∧ ∀ passes' ≥ passes, routes lflag rand passes' t = some (adj, t') := by
  cases lflag with
  | true => exact ⟨0, _, t, (build_linear_routes_connected two).2, fun _ _ => rfl⟩
  | false =>
      obtain ⟨passes, joined⟩ := fair.joined two t
      rcases build_routes_eq (n := n) rand (passes + 1) t new2D with ⟨m, _, ended, all, _⟩ | ⟨_, none⟩
      · exact ⟨passes + 1, _, _, all, fun passes' le => build_routes_mono ended le⟩
      · have connected := (connected_laid (passes + 1)).mpr (joined.mono (Nat.le_succ passes))
        exact absurd connected (none passes (Nat.lt_succ_self passes))

end Ends

/-- Where every two stations are drawn again and again the generator ends, for every number of stations
between `MIN_NODES` and `MAX_NODES`. -/
theorem generator_ends [NeZero n] (hours : Hours) (lflag : Bool) {rand : ℕ → ℕ} (fair : Fair n rand)
    (many : MIN_NODES ≤ n) (few : n ≤ MAX_NODES) :
    ∃ passes, ∃ out : Output n, main hours lflag rand passes = some out := by
  obtain ⟨passes, adj, t, connected, built⟩ := routes_end fair many lflag 1
  obtain ⟨passes', r, printed⟩ : ∃ passes r, build_timetables rand hours adj (places rand t) passes (List.finRange n)
      (t + 2 * n) = some r := build_timetables_end fair connected _ _
  have inside : ¬ (n < MIN_NODES ∨ MAX_NODES < n) := by
    rw [not_or, Nat.not_lt, Nat.not_lt]
    exact ⟨many, few⟩
  refine ⟨max passes passes', ?_⟩
  unfold main
  rw [if_neg inside]
  dsimp only
  rw [built _ (Nat.le_max_left passes passes')]
  dsimp only
  rw [build_timetables_mono printed (Nat.le_max_right passes passes')]
  exact ⟨_, rfl⟩

theorem coins_fair : Fair 2 coins := by
  have comes : ∀ t r, r < 5 → ∃ k, (t + 2 * k) % 5 = r := by
    intro t r small
    have rest := Nat.mod_lt t (show 0 < 5 by decide)
    exact ⟨3 * (r + 5 - t % 5), by omega⟩
  have next : ∀ t k r, (t + 2 * k) % 5 = r → (drawn coins t k : Fin 2 × Fin 2) =
      (Fin.ofNat 2 (if r < 3 then 0 else 1), Fin.ofNat 2 (if (r + 1) % 5 < 3 then 0 else 1)) := by
    rintro t k r rfl
    rw [drawn, coins, coins, Nat.add_mod (t + 2 * k) 1, Nat.add_mod ((t + 2 * k) % 5) 1, Nat.mod_mod]
  intro t a b
  have some : ∃ r < 5, (Fin.ofNat 2 (if r < 3 then 0 else 1), Fin.ofNat 2 (if (r + 1) % 5 < 3 then 0 else 1)) = (a, b) := by
    revert a b
    decide
  obtain ⟨r, small, drew⟩ := some
  obtain ⟨k, here⟩ := comes t r small
  exact ⟨k, (next t k r here).trans drew⟩

theorem coins_end : ∃ passes, ∃ out : Output 2, main fromFive true coins passes = some out :=
  generator_ends fromFive true coins_fair (by decide) (by decide)

end Generator
end TransitNet
