import TransitNet.Generated
import TransitNet.Localhost
import TransitNet.Substitution

/-! From the file of the generator in which the neighbours of each station are listed to the script that
starts all stations. Two scripts make it, one for each program; `sed` does most of their work. -/
namespace TransitNet
open Words Substitution

variable {n : ℕ}

namespace Generator.Output
variable (out : Output n)

/-- In the order in which they are printed. -/
def neighbourhood (i : Fin n) : List (Fin n) := (List.finRange n).filter fun j => out.adj i j

/-- What `print_adjacency` prints. -/
def adjacency : List Text :=
  (List.finRange n).map fun i => out.station i ++ spaced ' ' ((out.neighbourhood i).map out.station)

end Generator.Output

/-- Where one of the two scripts differs from the other. -/
inductive Script
  | assignports
  | pyports

namespace Script

def MYSERVER : Script → Text
  | assignports => "./station-server".toList
  | pyports => "python3 -m server".toList

/-- `expand`, from a column on. -/
def expand : ℕ → Text → Text
  | _, [] => []
  | column, c :: s =>
      if c = '\t' then List.replicate (8 - column % 8) ' ' ++ expand (column + (8 - column % 8)) s
      else c :: expand (column + 1) s

/-- `tr -s ' '` -/
def squeeze : Text → Text
  | [] => []
  | c :: s => if c = ' ' ∧ s.head? = some ' ' then squeeze s else c :: squeeze s

/-- `expand < $1 | sed -e 's/^ *//' | tr -s ' ' | grep '^[A-Za-z]'` -/
def prepare (file : Text) : List Text :=
  ((file.splitOn '\n').map fun line => squeeze ((expand 0 line).dropWhile (· = ' '))).filter
    fun line => line.head?.any Char.isAlpha

/-- What `uname` prints, as far as it matters. -/
inductive Uname
  | Linux
  | Darwin
  | other

/-- The lines of `netstat` that are looked at. -/
def Uname.kept : Uname → Text → Bool
  | Linux, _ => true
  | Darwin, line => "tcp".toList.isPrefixOf line || decide ("udp".toList <:+: line)
  | other, _ => false

/-- `cut -c21-40`, and `-c22-40` on Darwin: where the local address stands. -/
def Uname.columns : Uname → Text → Text
  | Darwin, line => (line.take 40).drop 21
  | _, line => (line.take 40).drop 20

def Uname.separator : Uname → Char
  | Darwin => '.'
  | _ => ':'

/-- `sed 's/.*\:\(.*\)/\1/'`, with a dot on Darwin: what stands behind the last one. -/
def Uname.port (u : Uname) (address : Text) : Text := (address.reverse.takeWhile (· ≠ u.separator)).reverse

/-- What `sort -n` goes by. -/
def number (line : Text) : ℕ := Nat.ofDigitChars 10 (line.takeWhile Char.isDigit) 0

/-- Of the lines with one number `sort -u` keeps the first. -/
def firsts : List Text → List Text
  | [] => []
  | line :: lines => line :: (firsts lines).filter fun other => number other ≠ number line

/-- The lines that are written to a file, from those that `netstat` prints. -/
def find_ports_in_use (u : Uname) (netstat : List Text) : List Text :=
  (firsts (((netstat.filter u.kept).map fun line => u.port (u.columns line)).filter
    fun line => line.head?.any Char.isDigit)).mergeSort fun a b => number a ≤ number b

/-- `grep -q "^$1\$"`: the port is a whole line of the file. -/
def port_in_use (used : List Text) (port : ℕ) : Bool := Nat.toDigits 10 port ∈ used

/-- The inner loop of `build_sed`, if it ends within so many passes: `tport` and `port`. -/
def assign (used : List Text) : ℕ → ℕ → Option (ℕ × ℕ)
  | 0, _ => none
  | passes + 1, port =>
      if port_in_use used (port + 1) then assign used passes (port + 1)
      else if port_in_use used (port + 2) then assign used passes (port + 2)
      else some (port + 1, port + 2)

/-- The first word of a line, and the ports that it is to have. -/
structure Edit where
  station : Text
  tport : ℕ
  port : ℕ

/-- What `read` puts into its first variable. -/
def firstWord (line : Text) : Text := (next (· = ' ') line).1.getD []

def build_sed (used : List Text) (passes : ℕ) : ℕ → List Text → Option (List Edit)
  | _, [] => some []
  | port, line :: lines =>
      match assign used passes port with
      | none => none
      | some (tport, port) => (build_sed used passes port lines).map (⟨firstWord line, tport, port⟩ :: ·)

/-- `s/^$from /$from XXX$tport XXX$port /` -/
def Edit.front (e : Edit) : Text → Text :=
  Substitution.front (e.station ++ [' ']) (e.station ++ " XXX".toList ++ Nat.toDigits 10 e.tport ++
    " XXX".toList ++ Nat.toDigits 10 e.port ++ [' '])

/-- `s/ $from/ $port/` -/
def Edit.next (e : Edit) : Text → Text := first (' ' :: e.station) (' ' :: Nat.toDigits 10 e.port)

/-- `s/ \([0-9]\)/ localhost:\1/g` -/
def localhost : Text → Text
  | [] => []
  | c :: s => if c = ' ' ∧ s.head?.any Char.isDigit then c :: (loopback ++ ':' :: localhost s) else c :: localhost s

/-- All commands in their order, on one line. -/
def sed (script : Script) (edits : List Edit) (line : Text) : Text :=
  every "XXX".toList [] (localhost (script.MYSERVER ++ ' ' :: edits.foldl (fun line e => e.next (e.front line)) line ++
    " &".toList))

/-- The script that is written. -/
def write (script : Script) (used : List Text) (passes : ℕ) (file : Text) : Option (List Text) :=
  (build_sed used passes 4000 (prepare file)).map fun edits => (prepare file).map (script.sed edits)

/-! ### The ports -/

theorem toDigits_injective : Function.Injective (Nat.toDigits 10) := fun m k same => by
  have value := congrArg (fun ds => Nat.ofDigitChars 10 ds 0) same
  simpa only [Nat.ofDigitChars_ten_toDigits] using value

/-- How many of the ports in use are still to come. -/
noncomputable def ahead (used : List Text) (port : ℕ) : ℕ :=
  ((used.toFinset.preimage (Nat.toDigits 10) toDigits_injective.injOn).filter (port < ·)).card

theorem ahead_le (used : List Text) (port : ℕ) : ahead used port ≤ used.length := by
  classical
  refine (Finset.card_filter_le _ _).trans ?_
  rw [Finset.card_preimage]
  exact (Finset.card_filter_le _ _).trans used.toFinset_card_le

theorem ahead_mono (used : List Text) {port port' : ℕ} (le : port ≤ port') : ahead used port' ≤ ahead used port :=
  Finset.card_le_card (Finset.monotone_filter_right _ fun _ _ later => le.trans_lt later)

/-- A port in use is left behind. -/
theorem ahead_lt {used : List Text} {port port' : ℕ} (lt : port < port') (busy : port_in_use used port' = true) :
    ahead used port' < ahead used port := by
  apply Finset.card_lt_card
  rw [Finset.ssubset_iff_of_subset (Finset.monotone_filter_right _ fun _ _ later => lt.trans later)]
  refine ⟨port', ?_, fun member => Nat.lt_irrefl port' (Finset.mem_filter.mp member).2⟩
  rw [Finset.mem_filter, Finset.mem_preimage, List.mem_toFinset]
  exact ⟨of_decide_eq_true busy, lt⟩

/-- Two ports that follow each other, and that are no lines of the file. -/
structure Free (used : List Text) (tport : ℕ) : Prop where
  tcp : Nat.toDigits 10 tport ∉ used
  udp : Nat.toDigits 10 (tport + 1) ∉ used

theorem assign_spec (used : List Text) (port : ℕ) : ∃ tport, port < tport ∧ Free used tport ∧
    tport + 1 + 2 * ahead used (tport + 1) ≤ port + 2 + 2 * ahead used port ∧
    ∀ passes > ahead used port, assign used passes port = some (tport, tport + 1) := by
  -- induction on the ports in use that are still to come
  generalize rest : ahead used port = k
  induction k using Nat.strong_induction_on generalizing port with
  | _ k ih =>
      subst rest
      have retry : ∀ port' > port, port' ≤ port + 2 → port_in_use used port' = true →
          (∀ passes, assign used (passes + 1) port = assign used passes port') →
          ∃ tport, port < tport ∧ Free used tport ∧
            tport + 1 + 2 * ahead used (tport + 1) ≤ port + 2 + 2 * ahead used port ∧
            ∀ passes > ahead used port, assign used passes port = some (tport, tport + 1) := by
        intro port' further near busy again
        have fewer := ahead_lt further busy
        obtain ⟨tport, after, free, bound, found⟩ := ih _ fewer port' rfl
        refine ⟨tport, further.trans after, free, by omega, fun passes many => ?_⟩
        obtain ⟨passes, rfl⟩ := Nat.exists_eq_add_of_le' (Nat.zero_lt_of_lt many)
        rw [again, found passes (by omega)]
      by_cases busy : port_in_use used (port + 1) = true
      · exact retry (port + 1) (by omega) (by omega) busy fun passes => by rw [assign, if_pos busy]
      · by_cases busy' : port_in_use used (port + 2) = true
        · exact retry (port + 2) (by omega) (by omega) busy' fun passes => by rw [assign, if_neg busy, if_pos busy']
        · have less := ahead_mono used (show port ≤ port + 1 + 1 by omega)
          refine ⟨port + 1, Nat.lt_succ_self port, ⟨?_, ?_⟩, by omega, fun passes many => ?_⟩
          · exact fun member => busy (decide_eq_true member)
          · exact fun member => busy' (decide_eq_true member)
          · obtain ⟨passes, rfl⟩ := Nat.exists_eq_add_of_le' (Nat.zero_lt_of_lt many)
            rw [assign, if_neg busy, if_neg busy']

/-- The ports of all lines, in their order. -/
theorem build_sed_spec (used : List Text) (lines : List Text) (port : ℕ) : ∃ tports : List ℕ,
    tports.length = lines.length ∧ tports.Pairwise (fun t t' => t + 1 < t') ∧
    (∀ t ∈ tports, port < t ∧ Free used t ∧ t + 1 ≤ port + 2 * lines.length + 2 * ahead used port) ∧
    ∀ passes > used.length, build_sed used passes port lines =
      some (List.zipWith (fun line t => ⟨firstWord line, t, t + 1⟩) lines tports) := by
  induction lines generalizing port with
  | nil => exact ⟨[], rfl, .nil, fun _ none => absurd none List.not_mem_nil, fun _ _ => rfl⟩
  | cons line lines ih =>
      obtain ⟨tport, after, free, bound, found⟩ := assign_spec used port
      obtain ⟨tports, length, ordered, all, built⟩ := ih (tport + 1)
      refine ⟨tport :: tports, congrArg Nat.succ length, ?_, ?_, fun passes many => ?_⟩
      · exact List.pairwise_cons.mpr ⟨fun t member => (all t member).1, ordered⟩
      · rw [List.forall_mem_cons, List.length_cons]
        refine ⟨⟨after, free, by omega⟩, fun t member => ?_⟩
        obtain ⟨later, free, bound'⟩ := all t member
        exact ⟨by omega, free, by omega⟩
      · have enough := (ahead_le used port).trans_lt many
        rw [build_sed, found passes enough]
        dsimp only
        rw [built passes many]
        rfl

/-- Where no port is recognised, none is left out. -/
theorem build_sed_unrecognised {used : List Text} (free : ∀ p, port_in_use used p = false) (passes : ℕ) (lines : List Text)
    (port : ℕ) : build_sed used (passes + 1) port lines = some (lines.mapIdx fun k line =>
      ⟨firstWord line, port + 1 + 2 * k, port + 2 + 2 * k⟩) := by
  induction lines generalizing port with
  | nil => rfl
  | cons line lines ih =>
      have found : assign used (passes + 1) port = some (port + 1, port + 2) := by
        simp only [assign, free, Bool.false_eq_true, if_false]
      rw [build_sed, found]
      dsimp only
      rw [ih, Option.map_some, List.mapIdx_cons]
      congr 2
      refine List.ext_getElem (by simp) fun k _ _ => ?_
      rw [List.getElem_mapIdx, List.getElem_mapIdx]
      congr 1 <;> omega

/-! ### The list of ports in use -/

theorem firsts_subset {lines : List Text} {line : Text} (kept : line ∈ firsts lines) : line ∈ lines := by
  induction lines with
  | nil => exact kept
  | cons first lines ih =>
      rcases List.mem_cons.mp kept with rfl | later
      · exact List.mem_cons_self
      · exact List.mem_cons_of_mem first (ih (List.mem_filter.mp later).1)

theorem length_firsts_le (lines : List Text) : (firsts lines).length ≤ lines.length := by
  induction lines with
  | nil => exact Nat.le_refl 0
  | cons line lines ih => exact Nat.succ_le_succ ((List.length_filter_le _ _).trans ih)

theorem length_find_ports_le (u : Uname) (netstat : List Text) : (find_ports_in_use u netstat).length ≤ netstat.length := by
  rw [find_ports_in_use, List.length_mergeSort]
  refine (length_firsts_le _).trans ((List.length_filter_le _ _).trans ?_)
  rw [List.length_map]
  exact List.length_filter_le _ _

theorem mem_find_ports {u : Uname} {netstat : List Text} {line : Text} (listed : line ∈ find_ports_in_use u netstat) :
    ∃ printed ∈ netstat, line = u.port (u.columns printed) := by
  rw [find_ports_in_use, List.mem_mergeSort] at listed
  obtain ⟨printed, member, same⟩ := List.mem_map.mp (List.mem_filter.mp (firsts_subset listed)).1
  exact ⟨printed, (List.mem_filter.mp member).1, same.symm⟩

/-- A port is cut out up to the last of the columns. -/
theorem Uname.getLast?_port {u : Uname} {address : Text} {c : Char} (last : (u.port address).getLast? = some c) :
    address.getLast? = some c := by
  rw [Uname.port, List.getLast?_reverse] at last
  rw [← List.head?_reverse]
  cases back : address.reverse with
  | nil =>
      rw [back] at last
      cases last
  | cons d s =>
      rw [back, List.takeWhile_cons] at last
      split at last
      · exact last
      · cases last

/-- No port is recognised where no local address fills its columns: blanks follow each number. -/
theorem ports_unrecognised {u : Uname} {netstat : List Text}
    (padded : ∀ line ∈ netstat, ∀ c ∈ (u.columns line).getLast?, c.isDigit = false) (p : ℕ) :
    port_in_use (find_ports_in_use u netstat) p = false := by
  refine decide_eq_false fun listed => ?_
  obtain ⟨printed, member, same⟩ := mem_find_ports listed
  obtain ⟨c, last⟩ : ∃ c, (Nat.toDigits 10 p).getLast? = some c :=
    ⟨_, List.getLast?_eq_some_getLast Nat.toDigits_ne_nil⟩
  have digit := toDigits_digit (List.mem_of_getLast? last)
  rw [same] at last
  rw [padded printed member c (Uname.getLast?_port last)] at digit
  cases digit

/-! ### Words of a line -/

/-- What `read` takes for the name of the station. -/
theorem firstWord_spaced {w : Text} (word : Word (· = ' ') w) (u : Text) (ws : List Text) :
    firstWord (w ++ spaced ' ' (u :: ws)) = w := by
  rw [firstWord, spaced_cons, next_word word (by decide), Option.getD_some]

theorem splitOn_fileOf {lines : List Text} (plain : ∀ line ∈ lines, '\n' ∉ line) (some : lines ≠ []) :
    (fileOf lines true).splitOn '\n' = lines ++ [[]] := by
  have last : fileOf lines true = ['\n'].intercalate (lines ++ [[]]) := (intercalate_concat_nil '\n' some).symm
  have bare : ∀ line ∈ lines ++ [[]], '\n' ∉ line := by
    intro line member
    rcases List.mem_append.mp member with inside | empty
    · exact plain line inside
    · rw [List.mem_singleton.mp empty]
      exact List.not_mem_nil
  rw [last, List.splitOn_intercalate '\n' bare (List.append_ne_nil_of_left_ne_nil some _)]

theorem expand_plain {s : Text} (plain : '\t' ∉ s) (column : ℕ) : expand column s = s := by
  induction s generalizing column with
  | nil => rfl
  | cons c s ih =>
      have other : c ≠ '\t' := fun same => plain (same ▸ List.mem_cons_self)
      rw [expand, if_neg other, ih fun member => plain (List.mem_cons_of_mem c member)]

theorem squeeze_letters {w : Text} (clean : ' ' ∉ w) (s : Text) : squeeze (w ++ s) = w ++ squeeze s := by
  induction w with
  | nil => rfl
  | cons c w ih =>
      have other : c ≠ ' ' := fun same => clean (same ▸ List.mem_cons_self)
      rw [List.cons_append, squeeze, if_neg fun both => other both.1, ih fun member => clean (List.mem_cons_of_mem c member),
        List.cons_append]

theorem squeeze_spaced {ws : List Text} (words : ∀ w ∈ ws, Word (· = ' ') w) : squeeze (spaced ' ' ws) = spaced ' ' ws := by
  induction ws with
  | nil => rfl
  | cons w ws ih =>
      obtain ⟨word, rest⟩ := List.forall_mem_cons.mp words
      have clean : ' ' ∉ w := fun member => absurd (word.clean ' ' member) (by decide)
      have letter : (w ++ spaced ' ' ws).head? ≠ some ' ' := by
        obtain ⟨c, w, rfl⟩ := List.exists_cons_of_ne_nil word.nonempty
        rintro same
        exact clean (Option.some.inj same ▸ List.mem_cons_self)
      rw [spaced_cons, squeeze, if_neg fun both => letter both.2, squeeze_letters clean, ih rest]

/-- A word that begins with a digit becomes a port of the same host. -/
def onHost (w : Text) : Text := if w.head?.any Char.isDigit then loopback ++ ':' :: w else w

theorem localhost_letters {w : Text} (clean : ' ' ∉ w) (s : Text) : localhost (w ++ s) = w ++ localhost s := by
  induction w with
  | nil => rfl
  | cons c w ih =>
      have other : c ≠ ' ' := fun same => clean (same ▸ List.mem_cons_self)
      rw [List.cons_append, localhost, if_neg fun both => other both.1,
        ih fun member => clean (List.mem_cons_of_mem c member), List.cons_append]

theorem localhost_spaced {ws : List Text} (clean : ∀ w ∈ ws, ' ' ∉ w) :
    localhost (spaced ' ' ws) = spaced ' ' (ws.map onHost) := by
  induction ws with
  | nil => rfl
  | cons w ws ih =>
      obtain ⟨first, rest⟩ := List.forall_mem_cons.mp clean
      have front : (w ++ spaced ' ' ws).head?.any Char.isDigit = w.head?.any Char.isDigit := by
        cases w with
        | cons c w => rfl
        | nil => cases ws <;> rfl
      rw [spaced_cons, localhost, localhost_letters first, ih rest, List.map_cons, spaced_cons, onHost, front]
      by_cases digit : w.head?.any Char.isDigit = true
      · rw [if_pos ⟨rfl, digit⟩, if_pos digit, List.append_assoc, List.cons_append]
      · rw [if_neg fun both => digit both.2, if_neg digit]

end Script

/-! ### The names on a line -/

namespace Generator.Output
open Script
variable (out : Output n)

theorem station_word (i : Fin n) : Word (· = ' ') (out.station i) := by
  refine ⟨(out.station_plain i).nonempty, fun c member => decide_eq_false ?_⟩
  rintro rfl
  exact absurd ((out.station_plain i).printable ' ' member) (by decide)

theorem station_clean (i : Fin n) : ' ' ∉ out.station i := fun member =>
  absurd ((out.station_word i).clean ' ' member) (by decide)

/-- The names of a network begin in four ways. -/
theorem station_head (i : Fin n) : ∃ c s, out.station i = c :: s ∧ c.isAlpha = true ∧ c.isDigit = false ∧ c ≠ 'X' := by
  unfold station nodetype
  split <;> exact ⟨_, _, rfl, by decide, by decide, by decide⟩

theorem nodetype_heads {type0 : ℕ} {i j : Fin n} (same : (nodetype type0 i).head? = (nodetype type0 j).head?) :
    nodetype type0 i = nodetype type0 j := by
  revert same
  unfold nodetype
  split <;> split <;> decide

/-- No name is the beginning of another. -/
theorem station_prefix (few : n ≤ MAX_NODES) {i j : Fin n} (begins : out.station i <+: out.station j) : i = j := by
  have some : ∀ i : Fin n, nodetype out.type0 i ≠ [] := fun i => (nodetype_plain out.type0 i).nonempty
  have heads : (nodetype out.type0 i).head? = (nodetype out.type0 j).head? := by
    obtain ⟨c, s, front⟩ := List.exists_cons_of_ne_nil (some i)
    obtain ⟨d, t, front'⟩ := List.exists_cons_of_ne_nil (some j)
    rw [station, station, front, front', List.cons_append, List.cons_append, List.cons_prefix_cons] at begins
    rw [front, front', begins.1]
    rfl
  rw [station, station, nodetype_heads heads, List.prefix_append_right_inj] at begins
  exact nodename_injective few (begins.eq_of_length (by rw [length_nodename, length_nodename]))

/-- At most the last two letters of a name can be an `X`. -/
theorem station_unmarked (i : Fin n) : ¬ "XXX".toList <:+: out.station i := by
  intro marked
  have three := marked.sublist.count_le 'X'
  have none : (nodetype out.type0 i).count 'X' = 0 := by
    unfold nodetype
    split <;> decide
  have two : (nodename i).count 'X' ≤ (nodename i).length := List.count_le_length
  have short := (nodename_plain i).short
  have marks : "XXX".toList.count 'X' = 3 := by decide
  rw [station, List.count_append, none, marks] at three
  omega

end Generator.Output

theorem digits_head (k : ℕ) : ∃ c s, Nat.toDigits 10 k = c :: s ∧ c.isDigit = true := by
  obtain ⟨c, s, same⟩ := List.exists_cons_of_ne_nil (Nat.toDigits_ne_nil (b := 10) (n := k))
  exact ⟨c, s, same, toDigits_digit (same ▸ List.mem_cons_self)⟩

theorem digits_clean {k : ℕ} {c : Char} (other : c.isDigit = false) : c ∉ Nat.toDigits 10 k := fun member => by
  rw [toDigits_digit member] at other
  cases other

/-! ### The edits -/

namespace Generator.Output
open Script
variable (out : Output n) (port : Fin n → ℕ)

def edit (i : Fin n) : Edit := ⟨out.station i, port i, port i + 1⟩

/-- The ports of a station itself, out of reach of what looks for a digit behind a blank. -/
def marks (i : Fin n) : List Text :=
  ["XXX".toList ++ Nat.toDigits 10 (port i), "XXX".toList ++ Nat.toDigits 10 (port i + 1)]

/-- The neighbours of `i`, when the edits for some stations have been made. -/
def listed (edits : List (Fin n)) (i : Fin n) : List Text :=
  (out.neighbourhood i).map fun j => if j ∈ edits then Nat.toDigits 10 (port j + 1) else out.station j

/-- What then stands behind the name of `i`. -/
def edited (edits : List (Fin n)) (i : Fin n) : List Text :=
  (if i ∈ edits then marks port i else []) ++ out.listed port edits i

variable {out port}

theorem mem_marks {i : Fin n} {w : Text} (member : w ∈ marks port i) : ∃ k, w = "XXX".toList ++ Nat.toDigits 10 k := by
  rcases List.mem_cons.mp member with first | last
  · exact ⟨_, first⟩
  · exact ⟨_, List.mem_singleton.mp last⟩

theorem mem_line {own : Prop} [Decidable own] {edits : List (Fin n)} {i : Fin n} {w : Text}
    (member : w ∈ (if own then marks port i else []) ++ out.listed port edits i) :
    (∃ k, w = "XXX".toList ++ Nat.toDigits 10 k) ∨ (∃ k, w = Nat.toDigits 10 k) ∨ ∃ j, w = out.station j := by
  rcases List.mem_append.mp member with mark | neighbour
  · split at mark
    · exact .inl (mem_marks mark)
    · cases mark
  · obtain ⟨j, _, rfl⟩ := List.mem_map.mp neighbour
    split
    · exact .inr (.inl ⟨_, rfl⟩)
    · exact .inr (.inr ⟨j, rfl⟩)

theorem mark_clean (k : ℕ) : ' ' ∉ "XXX".toList ++ Nat.toDigits 10 k := by
  intro inside
  rcases List.mem_append.mp inside with front | digits
  · exact absurd front (by decide)
  · exact digits_clean (by decide) digits

section Line
variable (out port) (own : Prop) [Decidable own] (edits : List (Fin n)) (i k : Fin n)

theorem line_clean : ∀ w ∈ (if own then marks port i else []) ++ out.listed port edits i, ' ' ∉ w := by
  intro w member
  rcases mem_line member with ⟨k, rfl⟩ | ⟨k, rfl⟩ | ⟨j, rfl⟩
  · exact mark_clean k
  · exact digits_clean (by decide)
  · exact out.station_clean j

/-- What stands on a line does not begin with a name unless it is the name. -/
theorem line_whole (few : n ≤ MAX_NODES) : ∀ w ∈ (if own then marks port i else []) ++ out.listed port edits i,
    out.station k <+: w → w = out.station k := by
  obtain ⟨c, s, name, _, plain, unmarked⟩ := out.station_head k
  intro w member begins
  rcases mem_line member with ⟨m, rfl⟩ | ⟨m, rfl⟩ | ⟨j, rfl⟩
  · rw [name] at begins
    exact absurd (List.cons_prefix_cons.mp begins).1 unmarked
  · have digit := toDigits_digit (n := m) (begins.subset (name ▸ List.mem_cons_self))
    rw [digit] at plain
    cases plain
  · rw [out.station_prefix few begins]

end Line

section Step
variable {edits : List (Fin n)} {i k : Fin n}

/-- The ports of a station are put behind its own name. -/
theorem edit_front (new : k ∉ edits) (few : n ≤ MAX_NODES) (lively : out.neighbourhood i ≠ []) :
    (out.edit port k).front (out.station i ++ spaced ' ' (out.edited port edits i)) = out.station i ++ spaced ' '
      ((if i ∈ edits ++ [k] then marks port i else []) ++ out.listed port edits i) := by
  have more : out.edited port edits i ≠ [] :=
    List.append_ne_nil_of_right_ne_nil _ fun none => lively (List.map_eq_nil_iff.mp none)
  have edit := front_spaced (v := out.station k ++ " XXX".toList ++ Nat.toDigits 10 (port k) ++ " XXX".toList ++
    Nat.toDigits 10 (port k + 1) ++ [' ']) (out.station_clean k) (out.station_clean i) more
  rw [Edit.front]
  refine edit.trans ?_
  by_cases same : i = k
  · subst same
    have here : i ∈ edits ++ [i] := List.mem_append_right edits List.mem_cons_self
    rw [if_pos rfl, if_pos here, edited, if_neg new, List.nil_append]
    rw [edited, if_neg new, List.nil_append] at more
    obtain ⟨w, ws, split⟩ := List.exists_cons_of_ne_nil more
    rw [split, spaced_append, spaced_cons, List.tail_cons, marks, spaced_cons, spaced_cons, spaced_nil]
    simp only [List.append_assoc, List.cons_append, List.nil_append, List.append_nil]
    rfl
  · have other : out.station i ≠ out.station k := fun equal => same (out.station_injective few equal)
    have still : i ∈ edits ++ [k] ↔ i ∈ edits := by
      rw [List.mem_append, List.mem_singleton, or_iff_left same]
    simp only [if_neg other, still, edited]

theorem listed_replace (new : k ∉ edits) (few : n ≤ MAX_NODES) :
    (out.listed port edits i).replace (out.station k) (Nat.toDigits 10 (port k + 1)) =
      out.listed port (edits ++ [k]) i := by
  have once : (out.neighbourhood i).Nodup := (List.nodup_finRange n).filter _
  let f : Fin n → Text := fun j => if j ∈ edits then Nat.toDigits 10 (port j + 1) else out.station j
  have name : f k = out.station k := if_neg new
  have apart : ∀ j ∈ out.neighbourhood i, f j = f k → j = k := by
    intro j _ same
    obtain ⟨c, s, front, _, plain, _⟩ := out.station_head k
    rw [name] at same
    by_cases known : j ∈ edits
    · have digits : Nat.toDigits 10 (port j + 1) = c :: s := (if_pos known).symm.trans (same.trans front)
      rw [toDigits_digit (digits ▸ List.mem_cons_self)] at plain
      cases plain
    · exact out.station_injective few ((if_neg known).symm.trans same)
  have replaced := map_replace (f := f) (g := fun j => Nat.toDigits 10 (port j + 1)) once apart
  rw [name] at replaced
  refine replaced.trans (List.map_congr_left fun j _ => ?_)
  by_cases same : j = k
  · rw [if_pos same, if_pos (List.mem_append_right edits (List.mem_singleton.mpr same))]
  · have still : j ∈ edits ++ [k] ↔ j ∈ edits := by
      rw [List.mem_append, List.mem_singleton, or_iff_left same]
    simp only [if_neg same, still, f]

/-- One edit, for a station that none of those before it was for. -/
theorem edit_next (new : k ∉ edits) (few : n ≤ MAX_NODES) (lively : out.neighbourhood i ≠ []) :
    (out.edit port k).next ((out.edit port k).front (out.station i ++ spaced ' ' (out.edited port edits i))) =
      out.station i ++ spaced ' ' (out.edited port (edits ++ [k]) i) := by
  have unmarked : out.station k ∉ if i ∈ edits ++ [k] then marks port i else [] := by
    obtain ⟨c, s, name, _, _, unmarked⟩ := out.station_head k
    split
    · intro member
      obtain ⟨m, same⟩ := mem_marks member
      rw [name] at same
      exact unmarked (List.cons.inj same).1
    · exact List.not_mem_nil
  have replaced := first_spaced (v := Nat.toDigits 10 (port k + 1)) (out.station_clean k)
    (out.line_clean port (i ∈ edits ++ [k]) edits i) (out.line_whole port (i ∈ edits ++ [k]) edits i k few)
  rw [edit_front new few lively, Edit.next, first_skip (out.station_clean i)]
  refine congrArg (out.station i ++ ·) (replaced.trans ?_)
  rw [List.replace_append_right unmarked, listed_replace new few]
  rfl

/-- All edits, from the first station on. -/
theorem edits_fold (few : n ≤ MAX_NODES) (lively : out.neighbourhood i ≠ []) {ks : List (Fin n)}
    (once : (edits ++ ks).Nodup) : (ks.map (out.edit port)).foldl (fun line e => e.next (e.front line))
      (out.station i ++ spaced ' ' (out.edited port edits i)) =
        out.station i ++ spaced ' ' (out.edited port (edits ++ ks) i) := by
  induction ks generalizing edits with
  | nil => rw [List.append_nil, List.map_nil, List.foldl_nil]
  | cons k ks ih =>
      have new : k ∉ edits := fun member => (List.nodup_append.mp once).2.2 k member k List.mem_cons_self rfl
      rw [List.append_cons] at once
      rw [List.map_cons, List.foldl_cons, edit_next new few lively, ih once, ← List.append_cons]

end Step
end Generator.Output

/-! ### The script -/

namespace Script

theorem every_unmarked {w : Text} (none : 'X' ∉ w) : every "XXX".toList [] w = w :=
  every_absent fun marked => none (marked.subset List.mem_cons_self)

theorem every_mark (k : ℕ) : every "XXX".toList [] ("XXX".toList ++ Nat.toDigits 10 k) = Nat.toDigits 10 k := by
  rw [every_front (by decide), every_unmarked (digits_clean (by decide)), List.nil_append]

theorem onHost_plain {c : Char} (plain : c.isDigit = false) (s : Text) : onHost (c :: s) = c :: s := by
  rw [onHost, List.head?_cons, Option.any_some, plain, if_neg Bool.false_ne_true]

theorem onHost_digits (k : ℕ) : onHost (Nat.toDigits 10 k) = loopback ++ ':' :: Nat.toDigits 10 k := by
  obtain ⟨c, s, same, digit⟩ := digits_head k
  rw [onHost, same, List.head?_cons, Option.any_some, if_pos digit]

/-- The command is words that are left alone. -/
theorem MYSERVER_words (script : Script) : ∃ w ws, script.MYSERVER = w ++ spaced ' ' ws ∧
    ∀ u ∈ w :: ws, ' ' ∉ u ∧ 'X' ∉ u ∧ onHost u = u := by
  cases script with
  | assignports => exact ⟨"./station-server".toList, [], by decide, by decide⟩
  | pyports => exact ⟨"python3".toList, ["-m".toList, "server".toList], by decide, by decide⟩

/-- What the commands behind the edits make of a line of words. -/
theorem sed_words (script : Script) {words : List Text} (clean : ∀ w ∈ words, ' ' ∉ w) :
    every "XXX".toList [] (localhost (script.MYSERVER ++ spaced ' ' words)) =
      script.MYSERVER ++ spaced ' ' (words.map fun w => every "XXX".toList [] (onHost w)) := by
  obtain ⟨w, ws, same, alone⟩ := script.MYSERVER_words
  obtain ⟨⟨blank, unmarked, _⟩, alone⟩ := List.forall_mem_cons.mp alone
  have words_clean : ∀ u ∈ ws ++ words, ' ' ∉ u := fun u member =>
    (List.mem_append.mp member).elim (fun inside => (alone u inside).1) (clean u)
  have still : ws.map (every "XXX".toList [] ∘ onHost) = ws := by
    refine (List.map_congr_left fun u member => ?_).trans ws.map_id
    obtain ⟨_, unmarked, plain⟩ := alone u member
    rw [Function.comp_apply, plain, every_unmarked unmarked, id]
  rw [same, List.append_assoc, ← spaced_append, localhost_letters blank, localhost_spaced words_clean,
    every_spaced (by decide) (by decide), every_unmarked unmarked, List.map_map, List.map_append, still, spaced_append,
    List.append_assoc]
  rfl

end Script

namespace Generator.Output
open Script
variable (out : Output n) (port : Fin n → ℕ)

/-- Where the neighbours of `i` are told to be. -/
def addresses (host : Text) (i : Fin n) : List Text :=
  (out.neighbourhood i).map fun j => host ++ ':' :: Nat.toDigits 10 (port j + 1)

/-- The line that starts a station, with two ports of its own and the addresses of its neighbours. -/
def start (host : Text) (script : Script) (i : Fin n) : Text :=
  script.MYSERVER ++ spaced ' ' (out.station i :: Nat.toDigits 10 (port i) :: Nat.toDigits 10 (port i + 1) ::
    out.addresses port host i ++ ["&".toList])

variable {out port}

theorem sed_start (few : n ≤ MAX_NODES) (script : Script) {i : Fin n} (lively : out.neighbourhood i ≠ []) :
    script.sed ((List.finRange n).map (out.edit port))
      (out.station i ++ spaced ' ' ((out.neighbourhood i).map out.station)) = out.start port loopback script i := by
  have fresh : (out.neighbourhood i).map out.station = out.edited port [] i := by
    rw [edited, if_neg List.not_mem_nil, List.nil_append, listed]
    exact List.map_congr_left fun j _ => (if_neg List.not_mem_nil).symm
  have done : out.edited port (List.finRange n) i =
      marks port i ++ (out.neighbourhood i).map fun j => Nat.toDigits 10 (port j + 1) := by
    rw [edited, if_pos (List.mem_finRange i), listed]
    exact congrArg (marks port i ++ ·) (List.map_congr_left fun j _ => if_pos (List.mem_finRange j))
  have once : ([] ++ List.finRange n).Nodup := List.nodup_finRange n
  have folded : ((List.finRange n).map (out.edit port)).foldl (fun line e => e.next (e.front line))
      (out.station i ++ spaced ' ' (out.edited port [] i)) = out.station i ++ spaced ' ' (out.edited port (List.finRange n) i) :=
    edits_fold few lively once
  have line : script.MYSERVER ++ ' ' :: (out.station i ++ spaced ' ' (out.edited port (List.finRange n) i)) ++ " &".toList =
      script.MYSERVER ++ spaced ' ' (out.station i :: out.edited port (List.finRange n) i ++ ["&".toList]) := by
    rw [List.cons_append, spaced_cons, spaced_append, List.append_assoc, List.cons_append, List.append_assoc]
    rfl
  have clean : ∀ w ∈ out.station i :: out.edited port (List.finRange n) i ++ ["&".toList], ' ' ∉ w := by
    intro w member
    rcases List.mem_append.mp member with inside | last
    · rcases List.mem_cons.mp inside with rfl | edited
      · exact out.station_clean i
      · exact out.line_clean port _ _ i w edited
    · rw [List.mem_singleton.mp last]
      decide
  have name : ∀ j, every "XXX".toList [] (onHost (out.station j)) = out.station j := by
    intro j
    obtain ⟨c, s, same, _, plain, _⟩ := out.station_head j
    rw [same, onHost_plain plain, ← same, every_absent (out.station_unmarked j)]
  have mark : ∀ k, every "XXX".toList [] (onHost ("XXX".toList ++ Nat.toDigits 10 k)) = Nat.toDigits 10 k := by
    intro k
    have plain : onHost ("XXX".toList ++ Nat.toDigits 10 k) = "XXX".toList ++ Nat.toDigits 10 k :=
      onHost_plain (by decide) _
    rw [plain, every_mark]
  have neighbour : ∀ k, every "XXX".toList [] (onHost (Nat.toDigits 10 k)) = loopback ++ ':' :: Nat.toDigits 10 k := by
    intro k
    rw [onHost_digits, every_unmarked]
    intro member
    rcases List.mem_append.mp member with front | back
    · exact absurd front (by decide)
    · rcases List.mem_cons.mp back with colon | digits
      · exact absurd colon (by decide)
      · exact digits_clean (by decide) digits
  have end_ : every "XXX".toList [] (onHost "&".toList) = "&".toList := by decide
  rw [Script.sed, fresh, folded, line, sed_words script clean, done, start, addresses]
  simp only [List.map_cons, List.map_append, List.map_nil, marks, name, mark, end_, List.map_map, List.cons_append,
    List.nil_append]
  refine congrArg (fun ws => script.MYSERVER ++ spaced ' ' (_ :: _ :: _ :: (ws ++ _))) ?_
  exact List.map_congr_left fun j _ => neighbour (port j + 1)

/-- A line of the file `adjacency` is letters, digits and blanks. -/
theorem adjacency_plain (i : Fin n) : ∀ c ∈ out.station i ++ spaced ' ' ((out.neighbourhood i).map out.station),
    c = ' ' ∨ printable c = true := by
  intro c member
  rcases List.mem_append.mp member with own | others
  · exact .inr ((out.station_plain i).printable c own)
  · obtain ⟨w, listed, inside⟩ := List.mem_flatMap.mp others
    obtain ⟨j, _, rfl⟩ := List.mem_map.mp listed
    rcases List.mem_cons.mp inside with blank | letter
    · exact .inl blank
    · exact .inr ((out.station_plain j).printable c letter)

/-- The script reads the lines as they have been printed. -/
theorem prepare_adjacency (some : 0 < n) : prepare (fileOf out.adjacency true) = out.adjacency := by
  have high : ∀ i, ∀ c ∈ out.station i ++ spaced ' ' ((out.neighbourhood i).map out.station), c ≠ '\n' ∧ c ≠ '\t' := by
    intro i c member
    rcases adjacency_plain i c member with rfl | plain
    · decide
    · have low := (printable_iff.mp plain).1.1
      constructor <;> rintro rfl <;> exact absurd low (by decide)
  have lines : out.adjacency ≠ [] := by
    refine List.ne_nil_of_length_pos ?_
    rw [adjacency, List.length_map, List.length_finRange]
    exact some
  have split : (fileOf out.adjacency true).splitOn '\n' = out.adjacency ++ [[]] := by
    refine splitOn_fileOf (fun line member => ?_) lines
    obtain ⟨i, _, rfl⟩ := List.mem_map.mp member
    exact fun newline => (high i '\n' newline).1 rfl
  have same : ∀ line ∈ out.adjacency, squeeze ((expand 0 line).dropWhile (· = ' ')) = line ∧
      line.head?.any Char.isAlpha = true := by
    intro line member
    obtain ⟨i, _, rfl⟩ := List.mem_map.mp member
    obtain ⟨c, s, name, alpha, _⟩ := out.station_head i
    have letter : ∀ t, (c :: t).dropWhile (· = ' ') = c :: t := by
      intro t
      refine List.dropWhile_cons_of_neg fun blank => ?_
      rw [of_decide_eq_true blank] at alpha
      cases alpha
    rw [expand_plain fun tab => (high i '\t' tab).2 rfl, name, List.cons_append, letter,
      ← List.cons_append, ← name, squeeze_letters (out.station_clean i), squeeze_spaced]
    · refine ⟨rfl, ?_⟩
      rw [name, List.cons_append, List.head?_cons, Option.any_some, alpha]
    · intro w listed
      obtain ⟨j, _, rfl⟩ := List.mem_map.mp listed
      exact out.station_word j
  rw [prepare, split, List.map_append, List.filter_append]
  have kept : out.adjacency.map (fun line => squeeze ((expand 0 line).dropWhile (· = ' '))) = out.adjacency :=
    (List.map_congr_left fun line member => (same line member).1).trans out.adjacency.map_id
  have empty : (([[]] : List Text).map fun line => squeeze ((expand 0 line).dropWhile (· = ' '))).filter
      (fun line => line.head?.any Char.isAlpha) = [] := rfl
  rw [kept, empty, List.append_nil, List.filter_eq_self]
  exact fun line member => (same line member).2

/-- In a connected network everybody has a neighbour. -/
theorem Sound.lively {hours : Hours} (sound : out.Sound hours) (i : Fin n) : out.neighbourhood i ≠ [] := by
  obtain ⟨j, member, linked⟩ := List.countP_pos_iff.mp (neighbours_pos sound.connected i)
  exact List.ne_nil_of_mem (List.mem_filter.mpr ⟨member, linked⟩)

end Generator.Output

namespace Generator
open Script

/-- Each station is started under its own name, with two ports of its own that are no lines of the list of
ports in use, and is told the UDP ports of its neighbours and no others. The lines of that list end where
the columns of `netstat` do, so where none of these is filled the ports are the first ones, in use or not. -/
theorem start_script_tells_neighbours [NeZero n] {hours : Hours} {lflag : Bool} {rand : ℕ → ℕ} {passes : ℕ}
    {out : Output n} (ran : main hours lflag rand passes = some out) (script : Script) (u : Uname) (netstat : List Text) :
    ∃ port : Fin n → ℕ, (∀ i, 4000 < port i ∧ port i + 1 ≤ 4000 + 2 * n + 2 * netstat.length ∧
        Free (find_ports_in_use u netstat) (port i)) ∧
      (∀ i j, i < j → port i + 1 < port j) ∧
      ((∀ line ∈ netstat, ∀ c ∈ (u.columns line).getLast?, c.isDigit = false) → ∀ i : Fin n, port i = 4001 + 2 * i.val) ∧
      ∀ passes > netstat.length, script.write (find_ports_in_use u netstat) passes (fileOf out.adjacency true) =
        some ((List.finRange n).map (out.start port loopback script)) := by
  have sound := main_sound ran
  have few := length_find_ports_le u netstat
  obtain ⟨tports, length, ordered, all, built⟩ := build_sed_spec (find_ports_in_use u netstat) out.adjacency 4000
  have many : out.adjacency.length = n := by rw [Output.adjacency, List.length_map, List.length_finRange]
  rw [many] at length
  let port : Fin n → ℕ := fun i => tports.get (i.cast length.symm)
  refine ⟨port, fun i => ?_, fun i j before => ?_, fun padded i => ?_, fun passes enough => ?_⟩
  · obtain ⟨low, free, high⟩ : 4000 < port i ∧ Free (find_ports_in_use u netstat) (port i) ∧ _ := all _ (List.get_mem tports _)
    have least := ahead_le (find_ports_in_use u netstat) 4000
    rw [many] at high
    exact ⟨low, high.trans (by omega), free⟩
  · exact List.pairwise_iff_get.mp ordered (i.cast length.symm) (j.cast length.symm) before
  · have same := (built (netstat.length + 1) (by omega)).symm.trans
      (build_sed_unrecognised (ports_unrecognised padded) netstat.length out.adjacency 4000)
    have place := congrArg (fun edits => (edits[i.val]?).map Edit.tport) (Option.some.inj same)
    have inside : i.val < tports.length := length ▸ i.isLt
    have within : i.val < out.adjacency.length := many.symm ▸ i.isLt
    simp only [List.getElem?_zipWith, List.getElem?_mapIdx, List.getElem?_eq_getElem inside,
      List.getElem?_eq_getElem within, Option.map_some, Option.some.injEq] at place
    exact place
  · have edits : List.zipWith (fun line t => (⟨firstWord line, t, t + 1⟩ : Edit)) out.adjacency tports =
        (List.finRange n).map (out.edit port) := by
      have ports : tports = (List.finRange n).map port := by
        refine List.ext_getElem (by rw [length, List.length_map, List.length_finRange]) fun k _ _ => ?_
        rw [List.getElem_map, List.getElem_finRange]
        rfl
      have named : ∀ i, firstWord (out.station i ++ spaced ' ' ((out.neighbourhood i).map out.station)) = out.station i := by
        intro i
        obtain ⟨j, js, some⟩ := List.exists_cons_of_ne_nil (sound.lively i)
        rw [some, List.map_cons, firstWord_spaced (out.station_word i)]
      rw [ports, Output.adjacency, List.zipWith_map, List.zipWith_self]
      exact List.map_congr_left fun i _ => by rw [named, Output.edit]
    have lines : out.adjacency.map (script.sed ((List.finRange n).map (out.edit port))) =
        (List.finRange n).map (out.start port loopback script) := by
      rw [Output.adjacency, List.map_map]
      exact List.map_congr_left fun i _ => Output.sed_start sound.few script (sound.lively i)
    rw [write, Output.prepare_adjacency (Nat.lt_of_lt_of_le (by decide) sound.many), built passes (by omega), edits,
      Option.map_some, lines]

/-- What `netstat` prints of a server on port 4001. -/
def listening : Text := "tcp        0      0 127.0.0.1:4001          0.0.0.0:*               LISTEN".toList

/-- The port keeps its blanks; behind an address that fills the columns it does not. -/
example : find_ports_in_use .Linux [listening] = ["4001      ".toList] ∧
    find_ports_in_use .Linux ["tcp        0      0 123.123.123.123:4001    0.0.0.0:*".toList] = ["4001".toList] := by
  decide +kernel

/-- The first station is given the port that is taken. -/
theorem coins_start : ∃ out : Output 2, main fromSix false coins 200 = some out ∧ ∃ port : Fin 2 → ℕ,
    port 0 = 4001 ∧ port 1 = 4003 ∧ Script.pyports.write (find_ports_in_use .Linux [listening]) 2
      (fileOf out.adjacency true) = some ((List.finRange 2).map (out.start port loopback .pyports)) := by
  obtain ⟨out, ran⟩ := coins_run
  obtain ⟨port, _, _, padded, written⟩ := start_script_tells_neighbours ran .pyports .Linux [listening]
  have last : (Uname.Linux.columns listening).getLast? = some ' ' := by decide +kernel
  have blank : ∀ line ∈ [listening], ∀ c ∈ (Uname.Linux.columns line).getLast?, c.isDigit = false := by
    intro line member c inside
    rw [List.mem_singleton.mp member, last] at inside
    cases inside
    rfl
  exact ⟨out, ran, port, padded blank 0, padded blank 1, written 2 (by decide)⟩

end Generator
end TransitNet
