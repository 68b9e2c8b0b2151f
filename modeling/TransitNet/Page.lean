import TransitNet.Connections
import TransitNet.Startup
import Mathlib.Data.List.DropRight
import Mathlib.Data.List.Perm.Basic

/-! The page from which a browser asks the stations. It is made of the script that starts them, and has a
form for each line of it. -/
namespace TransitNet
open Words Generator

variable {n : ℕ}

namespace Page

/-- `cut '-d ' -f2,3`. A line without a blank is printed as it is. -/
def cut (line : Text) : Text :=
  match line.splitOn ' ' with
  | _ :: field :: fields => [' '].intercalate (field :: fields.take 1)
  | _ => line

/-- `expand < $1 | sed 's/^ //g' | tr -s ' ' | grep '[a-z]' | cut '-d ' -f2,3 | sort`, whatever the
order is in which it sorts. -/
def TMP (le : Text → Text → Bool) (file : Text) : List Text :=
  ((((file.splitOn '\n').map fun line => Script.squeeze (Substitution.front [' '] [] (Script.expand 0 line))).filter
    fun line => line.any Char.isLower).map cut).mergeSort le

/-- What `read` puts into the second of two variables. -/
def secondWord (line : Text) : Text := ((next (· = ' ') line).2.dropWhile (· = ' ')).rdropWhile (· = ' ')

/-- What one pass of `each_station` fills in. -/
structure Form where
  station : Text
  tcpport : Text
  dests : List Text

/-- The passes of `each_station`. Nobody is offered the way to himself. -/
def forms (TMP : List Text) : List Form :=
  TMP.map fun line => ⟨Script.firstWord line, secondWord line, (TMP.map Script.firstWord).filter (· ≠ Script.firstWord line)⟩

/-- `` `date '+%H-%M'` `` -/
def LEAVE (hours minutes : ℕ) : Text := twoDigits hours ++ '-' :: twoDigits minutes

def Form.lines (HOST LEAVE : Text) (form : Form) : List Text :=
  [[], "<div class=\"box\">".toList,
    "<form action=\"http://".toList ++ HOST ++ ':' :: form.tcpport ++ "/\">".toList,
    "  <table>".toList,
    "  <tr>".toList,
    "    <td style=\"text-align: right;\">Leaving from:</td>".toList,
    "    <td style=\"text-align: left;\">&nbsp;<b>".toList ++ form.station ++ "</b></td>".toList,
    "    <td style=\"padding-left: 3em;\"><i>http://".toList ++ HOST ++ ':' :: form.tcpport ++ "/</i></td>".toList,
    "  </tr>".toList,
    "  <tr>".toList,
    "    <td style=\"text-align: right;\"><label>Destination:</label></td>".toList,
    "    <td><select name=\"to\">".toList] ++
  (form.dests.map fun dest => "      <option value='".toList ++ dest ++ "'>".toList ++ dest ++ "</option>".toList) ++
  ["  <input type=\"hidden\" name=\"time\" value=\"".toList ++ LEAVE ++ "\">".toList,
    "    </select></td>".toList,
    "    <td style=\"padding-left: 3em;\"><input type=\"submit\" value=\" Let's go! \"></td>".toList,
    "  </tr>".toList,
    "  </table>".toList,
    "</form>".toList,
    "</div>".toList]

/-- What is printed, line by line. -/
def each_station (HOST LEAVE : Text) (TMP : List Text) : List Text := (forms TMP).flatMap (Form.lines HOST LEAVE)

/-- What a browser sends for a form with the fields `to` and `time`. -/
def submit (dest LEAVE headers : Text) : Text := requestLine " HTTP/1.1".toList dest (some LEAVE) ++ headers

/-! ### The lines of the script -/

theorem splitOn_spaced {c : Char} {w : Text} {ws : List Text} (clean : ∀ u ∈ w :: ws, c ∉ u) :
    (w ++ spaced c ws).splitOn c = w :: ws := by
  induction ws generalizing w with
  | nil => rw [spaced_nil, List.append_nil, List.splitOn_eq_singleton (clean w List.mem_cons_self)]
  | cons u ws ih =>
      obtain ⟨first, rest⟩ := List.forall_mem_cons.mp clean
      rw [spaced_cons, List.splitOn_append_cons_self_of_not_mem first, ih rest]

def isblank (c : Char) : Bool := c = ' ' || c = '\t' || c = '\n'

/-- A line of words, the first of which has a small letter. -/
structure Line (w u v : Text) (ws : List Text) : Prop where
  words : ∀ x ∈ w :: u :: v :: ws, Word isblank x
  small : w.any Char.isLower = true

namespace Line
variable {w u v : Text} {ws : List Text}

theorem free (line : Line w u v ws) {c : Char} (blank : isblank c = true) (x : Text) (member : x ∈ w :: u :: v :: ws) :
    c ∉ x := by
  intro inside
  have solid := (line.words x member).clean c inside
  rw [blank] at solid
  cases solid

theorem clean (line : Line w u v ws) {c : Char} (blank : isblank c = true) (other : c ≠ ' ') :
    c ∉ w ++ spaced ' ' (u :: v :: ws) := by
  intro member
  rcases List.mem_append.mp member with front | behind
  · exact line.free blank w List.mem_cons_self front
  · obtain ⟨x, listed, inside⟩ := List.mem_flatMap.mp behind
    rcases List.mem_cons.mp inside with space | letter
    · exact other space
    · exact line.free blank x (List.mem_cons_of_mem w listed) letter

theorem spaces (line : Line w u v ws) (x : Text) (member : x ∈ w :: u :: v :: ws) : Word (· = ' ') x :=
  ⟨(line.words x member).nonempty, fun _ inside =>
    decide_eq_false fun same => line.free (c := ' ') rfl x member (same ▸ inside)⟩

/-- Nothing is left out before the line is cut. -/
theorem squeezed (line : Line w u v ws) :
    Script.squeeze (Substitution.front [' '] [] (Script.expand 0 (w ++ spaced ' ' (u :: v :: ws)))) =
      w ++ spaced ' ' (u :: v :: ws) := by
  have solid : ¬ [' '] <+: w ++ spaced ' ' (u :: v :: ws) := by
    obtain ⟨c, s, same⟩ := List.exists_cons_of_ne_nil (line.words w List.mem_cons_self).nonempty
    rw [same, List.cons_append, List.cons_prefix_cons]
    rintro ⟨rfl, _⟩
    exact line.free rfl w List.mem_cons_self (same ▸ List.mem_cons_self)
  rw [Script.expand_plain (line.clean rfl (by decide)), Substitution.front, if_neg solid,
    Script.squeeze_letters (line.free rfl w List.mem_cons_self),
    Script.squeeze_spaced fun x member => line.spaces x (List.mem_cons_of_mem w member)]

theorem kept (line : Line w u v ws) : (w ++ spaced ' ' (u :: v :: ws)).any Char.isLower = true := by
  rw [List.any_append, line.small, Bool.true_or]

theorem cut_eq (line : Line w u v ws) : cut (w ++ spaced ' ' (u :: v :: ws)) = u ++ ' ' :: v := by
  rw [cut, splitOn_spaced (line.free rfl)]
  simp only [List.take_succ_cons, List.take_zero, List.intercalate_cons_cons, List.intercalate_singleton, List.append_assoc,
    List.singleton_append]

/-- What `each_station` reads back. -/
theorem firstWord_eq (line : Line w u v ws) : Script.firstWord (u ++ ' ' :: v) = u := by
  rw [Script.firstWord, next_word (line.spaces u (by simp)) rfl, Option.getD_some]

theorem secondWord_eq (line : Line w u v ws) : secondWord (u ++ ' ' :: v) = v := by
  have word := line.spaces v (by simp)
  have start : v.dropWhile (· = ' ') = v := by
    rw [List.dropWhile_eq_self_iff]
    intro some blank
    rw [word.clean _ (List.getElem_mem some)] at blank
    cases blank
  have stop : v.rdropWhile (· = ' ') = v := by
    rw [List.rdropWhile_eq_self_iff]
    intro some blank
    rw [word.clean _ (List.getLast_mem some)] at blank
    cases blank
  rw [secondWord, next_word (line.spaces u (by simp)) rfl, start, stop]

end Line

/-! ### The page of a script -/

section Made
variable {ι : Type*} {is : List ι} {w u v : ι → Text} {ws : ι → List Text}

theorem TMP_eq (le : Text → Text → Bool) (some : is ≠ []) (lines : ∀ i ∈ is, Line (w i) (u i) (v i) (ws i)) :
    TMP le (fileOf (is.map fun i => w i ++ spaced ' ' (u i :: v i :: ws i)) true) =
      (is.map fun i => u i ++ ' ' :: v i).mergeSort le := by
  have plain : ∀ line ∈ is.map fun i => w i ++ spaced ' ' (u i :: v i :: ws i), '\n' ∉ line := by
    intro line member
    obtain ⟨i, listed, rfl⟩ := List.mem_map.mp member
    exact (lines i listed).clean rfl (by decide)
  have end_ : Script.squeeze (Substitution.front [' '] [] (Script.expand 0 [])) = [] := rfl
  rw [TMP, Script.splitOn_fileOf plain (List.map_eq_nil_iff.not.mpr some), List.map_append, List.map_map, List.map_singleton,
    end_, List.filter_append]
  have same : is.map ((fun line => Script.squeeze (Substitution.front [' '] [] (Script.expand 0 line))) ∘
      fun i => w i ++ spaced ' ' (u i :: v i :: ws i)) = is.map fun i => w i ++ spaced ' ' (u i :: v i :: ws i) :=
    List.map_congr_left fun i listed => (lines i listed).squeezed
  have all : (is.map fun i => w i ++ spaced ' ' (u i :: v i :: ws i)).filter (fun line => line.any Char.isLower) =
      is.map fun i => w i ++ spaced ' ' (u i :: v i :: ws i) := by
    rw [List.filter_eq_self]
    intro line member
    obtain ⟨i, listed, rfl⟩ := List.mem_map.mp member
    exact (lines i listed).kept
  have none : ([[]] : List Text).filter (fun line => line.any Char.isLower) = [] := rfl
  rw [same, all, none, List.append_nil, List.map_map]
  exact congrArg (List.mergeSort · le) (List.map_congr_left fun i listed => (lines i listed).cut_eq)

theorem exists_perm_of_perm_map {α : Type*} {f : ι → α} {l : List α} (perm : l.Perm (is.map f)) :
    ∃ js : List ι, js.Perm is ∧ l = js.map f := by
  have related : List.Forall₂ (fun a i => a = f i) (is.map f) is := by
    rw [List.forall₂_map_left_iff, List.forall₂_same]
    exact fun i _ => rfl
  obtain ⟨js, images, perm⟩ := List.perm_comp_forall₂ perm related
  exact ⟨js, perm, List.forall₂_eq_eq_eq ▸ List.forall₂_map_right_iff.mpr images⟩

/-- The forms stand in some order, and so do the stations that each of them offers. -/
theorem forms_eq (le : Text → Text → Bool) (some : is ≠ []) (lines : ∀ i ∈ is, Line (w i) (u i) (v i) (ws i)) :
    ∃ js : List ι, js.Perm is ∧ forms (TMP le (fileOf (is.map fun i => w i ++ spaced ' ' (u i :: v i :: ws i)) true)) =
      js.map fun i => ⟨u i, v i, (js.map u).filter (· ≠ u i)⟩ := by
  rw [TMP_eq le some lines]
  obtain ⟨js, perm, sorted⟩ := exists_perm_of_perm_map (List.mergeSort_perm (is.map fun i => u i ++ ' ' :: v i) le)
  have listed : ∀ i ∈ js, Line (w i) (u i) (v i) (ws i) := fun i member => lines i (perm.subset member)
  have names : (js.map fun i => u i ++ ' ' :: v i).map Script.firstWord = js.map u := by
    rw [List.map_map]
    exact List.map_congr_left fun i member => (listed i member).firstWord_eq
  refine ⟨js, perm, ?_⟩
  rw [sorted, forms, names, List.map_map]
  refine List.map_congr_left fun i member => ?_
  rw [Function.comp_apply, (listed i member).firstWord_eq, (listed i member).secondWord_eq]

end Made

/-! ### The page of a network -/

/-- Blanks and what delimits a query come before all that is printed. -/
theorem word_of_plain {limit : ℕ} {s : Text} {sep : Char → Bool} (plain : Plain limit s)
    (low : ∀ c, sep c = true → c.toNat < 45) : Word sep s := by
  refine ⟨plain.nonempty, fun c member => ?_⟩
  rw [Bool.eq_false_iff]
  intro blank
  exact absurd (printable_iff.mp (plain.printable c member)).1.1 (Nat.not_le_of_lt (low c blank))

theorem solid_of_plain {limit : ℕ} {s : Text} (plain : Plain limit s) : Word isblank s := by
  apply word_of_plain plain
  intro c blank
  simp only [isblank, Bool.or_eq_true, decide_eq_true_eq] at blank
  rcases blank with (rfl | rfl) | rfl <;> decide

theorem digits_plain (k : ℕ) : Plain (Nat.toDigits 10 k).length (Nat.toDigits 10 k) :=
  ⟨Nat.toDigits_ne_nil, fun _ member => printable_digit (toDigits_digit member), Nat.le_refl _⟩

section Start
variable (out : Output n) (port : Fin n → ℕ) (i : Fin n)

theorem behind_solid : ∀ x ∈ Nat.toDigits 10 (port i + 1) :: out.addresses port loopback i ++ ["&".toList],
    Word isblank x := by
  intro x member
  rcases List.mem_append.mp member with inside | last
  · rcases List.mem_cons.mp inside with rfl | address
    · exact solid_of_plain (digits_plain _)
    · obtain ⟨j, _, rfl⟩ := List.mem_map.mp address
      have host : Plain 9 loopback := .of_all (by decide) (by decide) (by decide)
      have colon : Plain 1 [':'] := .of_all (by decide) (by decide) (by decide)
      exact solid_of_plain (host.append (colon.append (digits_plain _)))
  · rw [List.mem_singleton.mp last]
    decide

theorem assignports_line : Line "./station-server".toList (out.station i) (Nat.toDigits 10 (port i))
    (Nat.toDigits 10 (port i + 1) :: out.addresses port loopback i ++ ["&".toList]) := by
  refine ⟨?_, by decide⟩
  rw [List.forall_mem_cons, List.forall_mem_cons, List.forall_mem_cons]
  exact ⟨by decide, solid_of_plain (out.station_plain i), solid_of_plain (digits_plain _), behind_solid out port i⟩

theorem pyports_line : Line "python3".toList "-m".toList "server".toList
    (out.station i :: Nat.toDigits 10 (port i) :: (Nat.toDigits 10 (port i + 1) :: out.addresses port loopback i ++
      ["&".toList])) := by
  refine ⟨?_, by decide⟩
  rw [List.forall_mem_cons, List.forall_mem_cons, List.forall_mem_cons, List.forall_mem_cons, List.forall_mem_cons]
  exact ⟨by decide, by decide, by decide, solid_of_plain (out.station_plain i), solid_of_plain (digits_plain _),
    behind_solid out port i⟩

end Start

/-! ### What is asked -/

theorem hyphen_not_mem_station (out : Output n) (i : Fin n) : '-' ∉ out.station i := by
  have all : ∀ k < 26, Char.ofNat ('A'.toNat + k) ≠ '-' := by decide
  have letter_ne : ∀ k, '-' ≠ letter k := fun k same => all (k % 26) (Nat.mod_lt k (by decide)) same.symm
  have kind : '-' ∉ nodetype out.type0 i := by
    unfold nodetype
    split <;> decide
  have name : '-' ∉ nodename i := by
    unfold nodename
    split
    · rw [List.mem_singleton]
      exact letter_ne i
    · rw [List.mem_cons, List.mem_singleton, not_or]
      exact ⟨letter_ne i, letter_ne (i / 26)⟩
  rw [Output.station, List.mem_append, not_or]
  exact ⟨kind, name⟩

theorem hyphen_not_mem_twoDigits {k : ℕ} (small : k < 100) : '-' ∉ twoDigits k := fun member =>
  absurd (twoDigits_digit small member) (by decide)

theorem decode_LEAVE {hours minutes : ℕ} (h : hours < 100) (m : minutes < 100) :
    decode_url (LEAVE hours minutes) = clock hours minutes := by
  have front := decode_url_self.mpr (hyphen_not_mem_twoDigits h)
  have behind := decode_url_self.mpr (hyphen_not_mem_twoDigits m)
  unfold decode_url at front behind ⊢
  rw [LEAVE, List.map_append, List.map_cons, front, behind, if_pos rfl, clock]

theorem LEAVE_plain {hours minutes : ℕ} (h : hours < 100) (m : minutes < 100) : Plain 5 (LEAVE hours minutes) := by
  have hyphen : Plain 1 ['-'] := .of_all (by decide) (by decide) (by decide)
  exact (twoDigits_plain h).append (hyphen.append (twoDigits_plain m))

theorem query_word {limit : ℕ} {s : Text} (plain : Plain limit s) : Word (fun c => delimits c || c = '\n') s := by
  apply word_of_plain plain
  intro c blank
  simp only [delimits, Bool.or_eq_true, decide_eq_true_eq] at blank
  rcases blank with (rfl | rfl) | rfl <;> decide

section Submit
variable {dest headers : Text} {hours minutes : ℕ}

/-- A C station takes what is submitted for what it is. -/
theorem connection_submit (plain : Plain 10 dest) (h : hours < 24) (m : minutes < 60)
    (fits : (submit dest (LEAVE hours minutes) headers).length < MAXDATASIZE) (fd : ℕ) (now : Text) :
    connection now fd (submit dest (LEAVE hours minutes) headers) = .ok (.request fd dest (clock hours minutes)) := by
  have two : ∀ k < 100, TwoDigits (twoDigits k) := fun k small => ⟨fun _ member => twoDigits_digit small member, rfl⟩
  let asking : Asking :=
    { destination := dest
      time := some (twoDigits hours, twoDigits minutes)
      headers
      word := query_word plain
      short := plain.short.trans (by decide)
      digits := fun t given => by
        cases given
        exact ⟨two hours (by omega), two minutes (by omega)⟩
      fits }
  have free : NUL ∉ dest := fun member => absurd (printable_iff.mp (plain.printable NUL member)).1.1 (by decide)
  exact asking.connection_timed rfl free fd now

/-- And so does a Python station. -/
theorem parse_query_submit (plain : Plain 10 dest) (other : '-' ∉ dest) (h : hours < 24) (m : minutes < 60) (now : Text) :
    parse_query now (submit dest (LEAVE hours minutes) headers) = some (dest, clock hours minutes) := by
  have line : " HTTP/1.1".toList = versionWith '.' := by decide
  have word : ∀ {limit : ℕ} {s : Text}, Plain limit s → Word delimits s := fun plain =>
    (query_word plain).mono fun both => (Bool.or_eq_false_iff.mp both).1
  have opens : Opens (versionWith '.') (submit dest (LEAVE hours minutes) headers) dest (some (LEAVE hours minutes)) := by
    refine ⟨word plain, fun t given => ?_, ?_⟩
    · cases given
      exact word (LEAVE_plain (by omega) (by omega))
    · rw [submit, line]
      exact List.prefix_append _ _
  refine parse_query_iff.mpr ⟨'.', dest, some (LEAVE hours minutes), by decide, opens, ?_⟩
  rw [decode_url_self.mpr other, Option.map_some, Option.getD_some, decode_LEAVE (by omega) (by omega)]

end Submit

theorem stations_ne_nil [NeZero n] : List.finRange n ≠ [] :=
  List.ne_nil_of_mem (List.mem_finRange 0)

end Page

namespace Generator
open Page

/-- The page made of the script of the C stations has one form for each station, which goes to its TCP
port and offers all other stations; and whatever is submitted, either program reads as a question for the
station chosen, at the time of the page. A page made of the script of the Python stations has forms of
a station `-m`, and offers nothing. -/
theorem page_asks_for_every_station [NeZero n] {hours : Hours} {lflag : Bool} {rand : ℕ → ℕ} {passes : ℕ} {out : Output n}
    (ran : main hours lflag rand passes = some out) (port : Fin n → ℕ) (le : Text → Text → Bool) (HOST : Text) {h m : ℕ}
    (early : h < 24) (minute : m < 60) :
    (∃ stations : List (Fin n), stations.Perm (List.finRange n) ∧
      each_station HOST (LEAVE h m)
          (TMP le (fileOf ((List.finRange n).map (out.start port loopback .assignports)) true)) =
        stations.flatMap fun i => Form.lines HOST (LEAVE h m)
          ⟨out.station i, Nat.toDigits 10 (port i), (stations.filter (· ≠ i)).map out.station⟩) ∧
    (∀ (j : Fin n) (headers : Text), (submit (out.station j) (LEAVE h m) headers).length < MAXDATASIZE → ∀ now,
      (∀ fd, connection now fd (submit (out.station j) (LEAVE h m) headers) =
        .ok (.request fd (out.station j) (clock h m))) ∧
      parse_query now (submit (out.station j) (LEAVE h m) headers) = some (out.station j, clock h m)) ∧
    each_station HOST (LEAVE h m)
        (TMP le (fileOf ((List.finRange n).map (out.start port loopback .pyports)) true)) =
      (List.replicate n ⟨"-m".toList, "server".toList, []⟩).flatMap (Form.lines HOST (LEAVE h m)) := by
  have injective := out.station_injective (main_sound ran).few
  refine ⟨?_, fun j headers fits now => ⟨fun fd => ?_, ?_⟩, ?_⟩
  · obtain ⟨stations, perm, made⟩ := forms_eq le stations_ne_nil fun i _ => assignports_line out port i
    refine ⟨stations, perm, ?_⟩
    have offered : ∀ i, (stations.map out.station).filter (· ≠ out.station i) =
        (stations.filter (· ≠ i)).map out.station := by
      intro i
      rw [List.filter_map]
      refine congrArg (List.map out.station) (List.filter_congr fun j _ => ?_)
      rw [Function.comp_apply, decide_eq_decide]
      exact injective.ne_iff
    have lines : (List.finRange n).map (out.start port loopback .assignports) = (List.finRange n).map fun i =>
        "./station-server".toList ++ spaced ' ' (out.station i :: Nat.toDigits 10 (port i) ::
          (Nat.toDigits 10 (port i + 1) :: out.addresses port loopback i ++ ["&".toList])) := rfl
    rw [each_station, lines, made, List.flatMap_map]
    simp only [offered]
  · exact connection_submit (out.station_plain j) early minute fits fd now
  · exact parse_query_submit (out.station_plain j) (hyphen_not_mem_station out j) early minute now
  · obtain ⟨stations, perm, made⟩ := forms_eq le stations_ne_nil fun i _ => pyports_line out port i
    have lines : (List.finRange n).map (out.start port loopback .pyports) = (List.finRange n).map fun i =>
        "python3".toList ++ spaced ' ' ("-m".toList :: "server".toList :: (out.station i :: Nat.toDigits 10 (port i) ::
          (Nat.toDigits 10 (port i + 1) :: out.addresses port loopback i ++ ["&".toList]))) := rfl
    have nobody : (stations.map fun _ => "-m".toList).filter (· ≠ "-m".toList) = [] := by
      rw [List.filter_eq_nil_iff]
      intro name member
      obtain ⟨_, _, rfl⟩ := List.mem_map.mp member
      decide
    rw [each_station, lines, made, nobody, List.map_const', perm.length_eq, List.length_finRange]

/-- Two stations, at five past eight, and the form of one for the other as a browser submits it. -/
theorem coins_ask : ∃ out : Output 2, main fromSix false coins 200 = some out ∧
    (∃ stations : List (Fin 2), stations.Perm (List.finRange 2) ∧
      each_station loopback (LEAVE 8 5) (TMP (fun s t => s.length ≤ t.length)
          (fileOf ((List.finRange 2).map (out.start (4001 + 2 * ·.val) loopback .assignports)) true)) =
        stations.flatMap fun i => Form.lines loopback (LEAVE 8 5)
          ⟨out.station i, Nat.toDigits 10 (4001 + 2 * i.val), (stations.filter (· ≠ i)).map out.station⟩) ∧
    connection "12:00".toList 5 (submit (out.station 1) (LEAVE 8 5) "\r\nHost: localhost:4001\r\n\r\n".toList) =
      .ok (.request 5 (out.station 1) "08:05".toList) ∧
    parse_query "12:00".toList (submit (out.station 1) (LEAVE 8 5) "\r\nHost: localhost:4001\r\n\r\n".toList) =
      some (out.station 1, "08:05".toList) ∧
    each_station loopback (LEAVE 8 5) (TMP (fun s t => s.length ≤ t.length)
        (fileOf ((List.finRange 2).map (out.start (4001 + 2 * ·.val) loopback .pyports)) true)) =
      (List.replicate 2 ⟨"-m".toList, "server".toList, []⟩).flatMap (Form.lines loopback (LEAVE 8 5)) := by
  obtain ⟨out, ran⟩ := coins_run
  obtain ⟨printed, asked, python⟩ := page_asks_for_every_station ran (4001 + 2 * ·.val)
    (fun s t => s.length ≤ t.length) loopback (h := 8) (m := 5) (by decide) (by decide)
  have fits : (submit (out.station 1) (LEAVE 8 5) "\r\nHost: localhost:4001\r\n\r\n".toList).length < MAXDATASIZE := by
    have short := (out.station_plain 1).short
    rw [submit, requestLine_some]
    simp only [List.length_append]
    change 9 + ((out.station 1).length + (6 + (5 + 9))) + 26 < 1024
    omega
  obtain ⟨browser, page⟩ := asked 1 _ fits "12:00".toList
  exact ⟨out, ran, printed, browser 5, page, python⟩

end Generator
end TransitNet
