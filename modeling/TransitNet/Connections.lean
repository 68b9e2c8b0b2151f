import TransitNet.Grammar
import TransitNet.Memory
import TransitNet.Scanf

/-! What a browser's connection brings to a C station: the request that `sscanf` finds in the bytes received. -/
namespace TransitNet
open Words Scanf

/-- `"GET /?to=%[^&]&time=%5[^\n] HTTP/1.1\n"`. -/
def timedFormat : List (Directive Char) :=
  ordinary isspace "GET /?to=".toList ++ .set none (· ≠ '&') ::
    (ordinary isspace "&time=".toList ++ .set (some 5) (· ≠ '\n') :: ordinary isspace " HTTP/1.1\n".toList)

/-- `"GET /?to=%[^&] HTTP/1.1\n"`. -/
def plainFormat : List (Directive Char) :=
  ordinary isspace "GET /?to=".toList ++ .set none (· ≠ '&') :: ordinary isspace " HTTP/1.1\n".toList

/-- `"%2[0-9]-%2[0-9]"`. -/
def clockFormat : List (Directive Char) :=
  .set (some 2) Char.isDigit :: (ordinary isspace ['-'] ++ [.set (some 2) Char.isDigit])

/-- The strings that `sscanf` assigns, each in an array of its size. -/
def assign : List ℕ → List Text → Except Fault (List Text)
  | size :: sizes, s :: rest => do
      let s ← strcpy size (some s)
      let rest ← assign sizes rest
      return s :: rest
  | _, _ => return []

/-- The destination and the time that `query` asks for, if it is meaningful. -/
def read_request (formatted_time query : Text) : Except Fault (Option (Text × Text)) := do
  match ← assign [61, 10] (sscanf isspace timedFormat query) with
  | [destination, buf] =>
      match ← assign [3, 3] (sscanf isspace clockFormat buf) with
      | [hours, minutes] =>
          let time ← strcpy MAX_TIMESTRING (some (hours ++ ':' :: minutes))
          return some (destination, time)
      | _ =>
          let _ ← strcpy MAX_TIMESTRING (some formatted_time)
          -- both are printed, whether they have been set or not
          throw .unset
  | _ =>
      match ← assign [61] (sscanf isspace plainFormat query) with
      | [destination] =>
          let time ← strcpy MAX_TIMESTRING (some formatted_time)
          return some (destination, time)
      | _ => return none

/-- The string in `query`, which `recv` has filled after `bzero`. It is empty if nothing came. -/
def recv (sent : Text) : Except Fault Text :=
  let query := sent.take MAXDATASIZE
  if query.length < MAXDATASIZE ∨ NUL ∈ query then .ok (strdup query) else .error .index

/-- A connection accepted as `fd`, on which a browser has sent something. -/
def connection (formatted_time : Text) (fd : ℕ) (sent : Text) : Except Fault Event := do
  let query ← recv sent
  match ← read_request formatted_time query with
  | some (destination, time) => return .request fd destination time
  | none => return .ignored fd

/-! ### What is read fits the buffers behind -/

theorem strcpy_eq_ok {size : ℕ} {s w : Text} : strcpy size (some s) = .ok w ↔ s.length < size ∧ s = w := by
  rw [strcpy]
  split
  · rename_i short
    exact ⟨fun same => ⟨short, Except.ok.inj same⟩, fun same => congrArg Except.ok same.2⟩
  · rename_i long
    constructor
    · intro same
      cases same
    · intro same
      exact absurd same.1 long

theorem assign_cons {size : ℕ} {sizes : List ℕ} {s w : Text} {rest ws : List Text} :
    assign (size :: sizes) (s :: rest) = .ok (w :: ws) ↔
      (s.length < size ∧ s = w) ∧ assign sizes rest = .ok ws := by
  rw [← strcpy_eq_ok]
  constructor
  · intro assigned
    obtain ⟨s', copied, assigned⟩ := ok_of_bind assigned
    obtain ⟨rest', assigned', same⟩ := ok_of_bind assigned
    cases same
    exact ⟨copied, assigned'⟩
  · rintro ⟨copied, assigned⟩
    rw [assign, copied, assigned]
    rfl

/-- The first string assigned is the first that was scanned. -/
theorem assign_head {size : ℕ} {sizes : List ℕ} {scanned ws : List Text} {w : Text}
    (assigned : assign (size :: sizes) scanned = .ok (w :: ws)) :
    w.length < size ∧ ∃ rest, scanned = w :: rest ∧ assign sizes rest = .ok ws := by
  cases scanned with
  | nil => cases assigned
  | cons s rest =>
      obtain ⟨⟨short, rfl⟩, behind⟩ := assign_cons.mp assigned
      exact ⟨short, rest, rfl, behind⟩

/-- A meaningful request was read by one format or the other. -/
theorem read_request_cases {formatted_time query destination time : Text}
    (read : read_request formatted_time query = .ok (some (destination, time))) :
    (destination.length < MAX_NAME_LENGTH ∧ time.length < MAX_TIMESTRING) ∧
      ((∃ buf, sscanf isspace timedFormat query = destination :: buf) ∨
        (∃ behind, sscanf isspace plainFormat query = destination :: behind) ∧ time = formatted_time) := by
  obtain ⟨scanned, assigned, read⟩ := ok_of_bind read
  split at read
  · rename_i destination' buf
    obtain ⟨short, rest, found, _⟩ := assign_head assigned
    obtain ⟨clocked, _, read⟩ := ok_of_bind read
    split at read
    · obtain ⟨time', copied, same⟩ := ok_of_bind read
      cases same
      obtain ⟨fits, rfl⟩ := strcpy_eq_ok.mp copied
      exact ⟨⟨short, fits⟩, .inl ⟨rest, found⟩⟩
    · obtain ⟨_, _, unset⟩ := ok_of_bind read
      cases unset
  · obtain ⟨scanned', assigned', read⟩ := ok_of_bind read
    split at read
    · obtain ⟨short, rest, found, _⟩ := assign_head assigned'
      obtain ⟨time', copied, same⟩ := ok_of_bind read
      cases same
      obtain ⟨fits, rfl⟩ := strcpy_eq_ok.mp copied
      exact ⟨⟨short, fits⟩, .inr ⟨⟨rest, found⟩, rfl⟩⟩
    · cases read

/-- What a connection brings, the main loop can take. -/
theorem connection_steps {formatted_time sent : Text} {fd : ℕ} {e : Event}
    (read : connection formatted_time fd sent = .ok e) (s : Server) (st : Station) :
    ∃ s', s.step st e = .ok (s', []) := by
  obtain ⟨query, _, read⟩ := ok_of_bind read
  obtain ⟨asked, found, read⟩ := ok_of_bind read
  cases asked with
  | none =>
      cases read
      exact ⟨_, rfl⟩
  | some request =>
      obtain ⟨destination, time⟩ := request
      cases read
      obtain ⟨⟨name, short⟩, _⟩ := read_request_cases found
      obtain ⟨s', ran⟩ := s.request_ok fd name short
      refine ⟨s', ?_⟩
      rw [Server.step, ran]
      rfl

/-! ### Requests -/

structure TwoDigits (s : Text) : Prop where
  digits : ∀ c ∈ s, c.isDigit = true
  two : s.length = 2

/-- A request for a name of at most sixty characters, at `HH-MM` if there is a time, with its headers. -/
structure Asking where
  destination : Text
  time : Option (Text × Text)
  headers : Text
  word : Word (fun c => delimits c || c = '\n') destination
  short : destination.length ≤ 60
  digits : ∀ t ∈ time, TwoDigits t.1 ∧ TwoDigits t.2
  fits : (requestLine " HTTP/1.1".toList destination (time.map fun t => t.1 ++ '-' :: t.2) ++ headers).length <
    MAXDATASIZE

namespace Asking

def text (a : Asking) : Text :=
  requestLine " HTTP/1.1".toList a.destination (a.time.map fun t => t.1 ++ '-' :: t.2) ++ a.headers

/-- The station takes it for what it is when its clock tells `now`. -/
def Understood (a : Asking) (fd : ℕ) (formatted_time now : Text) : Prop :=
  connection formatted_time fd a.text =
    .ok (.request fd a.destination (a.time.elim now fun t => t.1 ++ ':' :: t.2))

end Asking

theorem recv_short {sent : Text} (fits : sent.length < MAXDATASIZE) : recv sent = .ok (strdup sent) := by
  have whole : sent.take MAXDATASIZE = sent := List.take_of_length_le (Nat.le_of_lt fits)
  simp only [recv, whole]
  exact if_pos (.inl fits)

theorem sscanf_opened (format : List (Directive Char)) (s : Text) :
    sscanf isspace (ordinary isspace "GET /?to=".toList ++ format) ("GET /?to=".toList ++ s) =
      sscanf isspace format s := sscanf_ordinary (by decide +kernel) s

/-- The destination ends at the first `&`, and nowhere else. -/
theorem read_request_destination {formatted_time s destination time : Text}
    (read : read_request formatted_time ("GET /?to=".toList ++ s) = .ok (some (destination, time))) :
    destination = s.takeWhile (· ≠ '&') := by
  obtain ⟨_, ⟨buf, timed⟩ | ⟨⟨behind, plain⟩, _⟩⟩ := read_request_cases read
  · unfold timedFormat at timed
    rw [sscanf_opened] at timed
    exact sscanf_set_head timed
  · unfold plainFormat at plain
    rw [sscanf_opened] at plain
    exact sscanf_set_head plain

theorem strdup_opened (s : Text) : strdup ("GET /?to=".toList ++ s) = "GET /?to=".toList ++ strdup s :=
  strdup_append (by decide +kernel) s

theorem sscanf_timed {D T : Text} (named : D ≠ []) (plain : '&' ∉ D) (long : T.length = 5) (line : '\n' ∉ T)
    (rest : Text) : sscanf isspace timedFormat ("GET /?to=".toList ++ (D ++ ("&time=".toList ++ (T ++ rest)))) =
      [D, T] := by
  have stopped : field none (· ≠ '&') (D ++ ("&time=".toList ++ (T ++ rest))) = D := by
    refine field_stops (all_ne plain) ?_
    rw [time_append]
    rintro c ⟨⟩
    rfl
  have five : field (some 5) (· ≠ '\n') (T ++ rest) = T := field_width (all_ne line) long rest
  have timed : T ≠ [] := by
    rintro rfl
    cases long
  unfold timedFormat
  rw [sscanf_opened, sscanf_set named stopped, sscanf_ordinary (by decide +kernel), sscanf_set timed five,
    sscanf_ordinary_nil]

theorem TwoDigits.nonempty {s : Text} (two : TwoDigits s) : s ≠ [] := by
  rintro rfl
  cases two.two

theorem sscanf_clock {hours minutes : Text} (hh : TwoDigits hours) (mm : TwoDigits minutes) :
    sscanf isspace clockFormat (hours ++ '-' :: minutes) = [hours, minutes] := by
  have hyphen : ∀ format, sscanf isspace (ordinary isspace ['-'] ++ format) ('-' :: minutes) =
      sscanf isspace format minutes := fun _ => @sscanf_ordinary Char isspace _ _ ['-'] (by decide) minutes
  have last : field (some 2) Char.isDigit minutes = minutes := by
    have whole := field_width mm.digits mm.two []
    rw [List.append_nil] at whole
    exact whole
  unfold clockFormat
  rw [sscanf_set hh.nonempty (field_width hh.digits hh.two _), hyphen, sscanf_last mm.nonempty last]

/-! ### Which requests are understood -/

/-- A time on the wire holds digits and a hyphen. -/
theorem not_mem_clock {hours minutes : Text} (hh : TwoDigits hours) (mm : TwoDigits minutes) {c : Char}
    (letter : c.isDigit = false) (other : c ≠ '-') : c ∉ hours ++ '-' :: minutes := by
  have outside : ∀ {s : Text}, TwoDigits s → c ∉ s := by
    intro s two member
    rw [two.digits c member] at letter
    cases letter
  rw [List.mem_append, List.mem_cons]
  rintro (early | hyphen | late)
  · exact outside hh early
  · exact other hyphen
  · exact outside mm late

/-- A time of two digits and two digits is read. -/
theorem read_request_timed {D hours minutes : Text} (named : D ≠ []) (short : D.length ≤ 60) (plain : '&' ∉ D)
    (hh : TwoDigits hours) (mm : TwoDigits minutes) (formatted_time rest : Text) :
    read_request formatted_time ("GET /?to=".toList ++
      (D ++ ("&time=".toList ++ ((hours ++ '-' :: minutes) ++ rest)))) = .ok (some (D, hours ++ ':' :: minutes)) := by
  have five : ∀ c : Char, (hours ++ c :: minutes).length = 5 := by
    intro c
    rw [List.length_append, List.length_cons, hh.two, mm.two]
  have line : '\n' ∉ hours ++ '-' :: minutes := not_mem_clock hh mm (by decide) (by decide)
  have scanned := sscanf_timed named plain (five '-') line rest
  have assigned : assign [61, 10] [D, hours ++ '-' :: minutes] = .ok [D, hours ++ '-' :: minutes] := by
    refine assign_cons.mpr ⟨⟨Nat.lt_succ_of_le short, rfl⟩, assign_cons.mpr ⟨⟨?_, rfl⟩, rfl⟩⟩
    rw [five]
    decide
  have clocked : assign [3, 3] [hours, minutes] = .ok [hours, minutes] := by
    refine assign_cons.mpr ⟨⟨?_, rfl⟩, assign_cons.mpr ⟨⟨?_, rfl⟩, rfl⟩⟩
    · rw [hh.two]
      decide
    · rw [mm.two]
      decide
  have copied : strcpy MAX_TIMESTRING (some (hours ++ ':' :: minutes)) = .ok (hours ++ ':' :: minutes) := by
    refine strcpy_eq_ok.mpr ⟨?_, rfl⟩
    rw [five]
    decide
  unfold read_request
  rw [scanned, assigned]
  simp only [bind, Except.bind, sscanf_clock hh mm, clocked, copied]
  rfl

namespace Asking

theorem plain (a : Asking) : '&' ∉ a.destination := by
  intro member
  exact absurd (a.word.clean '&' member) (by decide)

/-- What stands behind the destination. -/
def behind (a : Asking) : Text :=
  match a.time with
  | none => " HTTP/1.1".toList ++ a.headers
  | some t => "&time=".toList ++ ((t.1 ++ '-' :: t.2) ++ (" HTTP/1.1".toList ++ a.headers))

theorem text_eq (a : Asking) : a.text = "GET /?to=".toList ++ (a.destination ++ a.behind) := by
  unfold text behind
  cases a.time with
  | none => rw [Option.map_none, requestLine_none, List.append_assoc, List.append_assoc]
  | some t =>
      rw [Option.map_some, requestLine_some]
      simp only [List.append_assoc]

theorem connection_eq (a : Asking) (fd : ℕ) (formatted_time : Text) : connection formatted_time fd a.text = (do
    match ← read_request formatted_time ("GET /?to=".toList ++ strdup (a.destination ++ a.behind)) with
    | some (destination, time) => return .request fd destination time
    | none => return .ignored fd) := by
  have received : recv a.text = .ok (strdup a.text) := recv_short a.fits
  unfold connection
  rw [received, a.text_eq, strdup_opened]
  rfl

/-- Whatever the station makes of it, the destination is what comes before the first `&` and NUL. -/
theorem connection_destination (a : Asking) {fd fd' : ℕ} {formatted_time destination time : Text}
    (read : connection formatted_time fd a.text = .ok (.request fd' destination time)) :
    destination = (strdup (a.destination ++ a.behind)).takeWhile (· ≠ '&') := by
  rw [connection_eq] at read
  obtain ⟨asked, found, read⟩ := ok_of_bind read
  cases asked with
  | none => cases read
  | some request =>
      cases read
      exact read_request_destination found

/-- Without a time, the destination goes on through the version and into the headers. -/
theorem plain_destination {a : Asking} (free : NUL ∉ a.destination) (untimed : a.time = none) :
    (strdup (a.destination ++ a.behind)).takeWhile (· ≠ '&') =
      a.destination ++ (" HTTP/1.1".toList ++ (strdup a.headers).takeWhile (· ≠ '&')) := by
  have version : '&' ∉ " HTTP/1.1".toList := by decide +kernel
  have behind : a.behind = " HTTP/1.1".toList ++ a.headers := by
    unfold Asking.behind
    rw [untimed]
  rw [strdup_append free, behind, strdup_append (by decide +kernel),
    List.takeWhile_append_of_pos (all_ne a.plain), List.takeWhile_append_of_pos (all_ne version)]

theorem connection_timed (a : Asking) {t : Text × Text} (given : a.time = some t) (free : NUL ∉ a.destination)
    (fd : ℕ) (formatted_time : Text) :
    connection formatted_time fd a.text = .ok (.request fd a.destination (t.1 ++ ':' :: t.2)) := by
  obtain ⟨hh, mm⟩ := a.digits t given
  have behind : a.behind = "&time=".toList ++ ((t.1 ++ '-' :: t.2) ++ (" HTTP/1.1".toList ++ a.headers)) := by
    unfold Asking.behind
    rw [given]
  have clock : NUL ∉ t.1 ++ '-' :: t.2 := not_mem_clock hh mm (by decide) (by decide)
  have read := read_request_timed a.word.nonempty a.short a.plain hh mm formatted_time
    (strdup (" HTTP/1.1".toList ++ a.headers))
  rw [a.connection_eq, strdup_append free, behind, strdup_append (by decide +kernel), strdup_append clock, read]
  rfl

/-- If that is more than fits, it is written past the end of the array. -/
theorem plain_overflow {a : Asking} (free : NUL ∉ a.destination) (untimed : a.time = none)
    (long : 60 < (a.destination ++ (" HTTP/1.1".toList ++ (strdup a.headers).takeWhile (· ≠ '&'))).length)
    (fd : ℕ) (formatted_time : Text) : connection formatted_time fd a.text = .error .overflow := by
  rw [← plain_destination free untimed] at long
  have read : field none (· ≠ '&') (strdup (a.destination ++ a.behind)) ≠ [] := by
    rw [field]
    exact List.ne_nil_of_length_pos (Nat.zero_lt_of_lt long)
  have scanned := fun format => @sscanf_field Char isspace _ format _ _ _ read
  rw [a.connection_eq, read_request, timedFormat, sscanf_opened, scanned, assign]
  have past : strcpy 61 (some (field none (· ≠ '&') (strdup (a.destination ++ a.behind)))) = .error .overflow :=
    if_neg (Nat.not_lt.mpr long)
  rw [past]
  rfl

end Asking

/-- In every run, a request with a time leaves the browser waiting for what it has asked. -/
theorem Serves.timed_request_waits {es : List (Station × Event)} {s : Server} (serves : Serves es s) (a : Asking)
    {t : Text × Text} (given : a.time = some t) (free : NUL ∉ a.destination) (fd : ℕ) (formatted_time : Text)
    (st : Station) : ∃ e s', connection formatted_time fd a.text = .ok e ∧ s.step st e = .ok (s', []) ∧
      s'.head_client = ⟨fd, ⟨t.1 ++ ':' :: t.2, a.destination, []⟩⟩ :: remove_client fd s.head_client := by
  have read := a.connection_timed given free fd formatted_time
  obtain ⟨s', ran⟩ := connection_steps read s st
  obtain ⟨s'', requested, same⟩ := ok_of_bind ran
  cases same
  exact ⟨_, s', read, ran, serves.kept.request_waits requested⟩

/-- The station understands exactly the requests that give a time, and a name without NUL. -/
theorem request_understood_iff (a : Asking) (fd : ℕ) (formatted_time now : Text) :
    a.Understood fd formatted_time now ↔ a.time ≠ none ∧ NUL ∉ a.destination := by
  unfold Asking.Understood
  constructor
  · intro read
    have cut := a.connection_destination read
    have free : NUL ∉ a.destination := by
      intro member
      rw [cut] at member
      exact strdup_no_nul _ ((List.takeWhile_prefix _).mem member)
    refine ⟨fun untimed => ?_, free⟩
    rw [Asking.plain_destination free untimed, List.self_eq_append_right] at cut
    exact absurd (List.append_eq_nil_iff.mp cut).1 (by decide)
  · rintro ⟨timed, free⟩
    obtain ⟨t, given⟩ := Option.ne_none_iff_exists'.mp timed
    rw [a.connection_timed given free, given]
    rfl

/-- A request without a time, and one header. -/
def plainly : Asking where
  destination := "StationB".toList
  time := none
  headers := "\r\nHost: localhost:4001\r\n\r\n".toList
  word := by decide
  short := by decide
  digits := fun t absent => absurd absent (Option.not_mem_none t)
  fits := by decide +kernel

/-- The header becomes part of the destination, and the time is that of the start. -/
theorem plainly_not_understood :
    connection "07:59".toList 5 plainly.text = .ok (.request 5
      "StationB HTTP/1.1\r\nHost: localhost:4001\r\n\r\n".toList "07:59".toList) ∧
    ¬ plainly.Understood 5 "07:59".toList "08:10".toList := by
  have received : recv plainly.text = .ok plainly.text := by decide +kernel
  have read : read_request "07:59".toList plainly.text =
      .ok (some ("StationB HTTP/1.1\r\nHost: localhost:4001\r\n\r\n".toList, "07:59".toList)) := by decide +kernel
  have told : connection "07:59".toList 5 plainly.text = .ok (.request 5
      "StationB HTTP/1.1\r\nHost: localhost:4001\r\n\r\n".toList "07:59".toList) := by
    simp only [connection, received, read, bind, Except.bind]
    rfl
  refine ⟨told, fun understood => ?_⟩
  unfold Asking.Understood at understood
  rw [told, Except.ok.injEq, Event.request.injEq] at understood
  exact absurd understood.2.1 (by decide +kernel)

end TransitNet
