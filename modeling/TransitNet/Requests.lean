import TransitNet.Bytes

/-! Requests to a Python station: `parse_query`, and the init payload that it puts on the wire. -/
namespace TransitNet
open Words Utf8

/-- `encoded_string.replace("-", ":")`. -/
def decode_url (encoded_string : Text) : Text := encoded_string.map fun c => if c = '-' then ':' else c

/-- A literal at the front of a text. -/
def matchLiteral (literal s : Text) : Option Text :=
  if literal.isPrefixOf s then some (s.drop literal.length) else none

/-- What `[^ &]` excludes. -/
def delimits (c : Char) : Bool := c = ' ' || c = '&'

/-- `([^ &]+)` at the front of a text. It takes all it can: what follows it in the patterns begins
with a character that it excludes. -/
def matchValue (s : Text) : Option (Text × Text) :=
  let value := s.takeWhile (!delimits ·)
  if value.isEmpty then none else some (value, s.dropWhile (!delimits ·))

/-- ` HTTP/1.1`; the dot is any character but a newline. -/
def matchVersion (s : Text) : Bool :=
  match matchLiteral " HTTP/1".toList s with
  | some (c :: '1' :: _) => c ≠ '\n'
  | _ => false

/-- `re.match(pattern1, query)`. -/
def pattern1 (query : Text) : Option Text := do
  let rest ← matchLiteral "GET /?to=".toList query
  let (group1, rest) ← matchValue rest
  if matchVersion rest then some group1 else none

/-- `re.match(pattern2, query)`. -/
def pattern2 (query : Text) : Option (Text × Text) := do
  let rest ← matchLiteral "GET /?to=".toList query
  let (group1, rest) ← matchValue rest
  let rest ← matchLiteral "&time=".toList rest
  let (group2, rest) ← matchValue rest
  if matchVersion rest then some (group1, group2) else none

/-- `parse_query` at the time of day `current_time`. -/
def parse_query (current_time query : Text) : Option (Text × Text) :=
  match pattern1 query with
  | some group1 => some (decode_url group1, current_time)
  | none => (pattern2 query).map fun groups => (decode_url groups.1, decode_url groups.2)

/-- `Payload(destination, source, starting_time)`. -/
def init_payload (destination STATION_NAME starting_time : Text) : PAYLOAD :=
  { defaultPayload with destination, source := STATION_NAME, start_time := starting_time }

/-! ### What the patterns accept -/

theorem matchValue_some {s value rest : Text} (found : matchValue s = some (value, rest)) :
    Word delimits value := by
  simp only [matchValue] at found
  split at found
  · cases found
  · rename_i some
    cases found
    rw [List.isEmpty_iff] at some
    exact ⟨some, fun c member => by simpa using List.mem_takeWhile_imp member⟩

theorem decode_url_word {s : Text} (word : Word delimits s) : decode_url s ≠ [] ∧ ' ' ∉ decode_url s := by
  refine ⟨fun empty => word.nonempty (List.map_eq_nil_iff.mp empty), fun member => ?_⟩
  obtain ⟨c, inside, same⟩ := List.mem_map.mp member
  split at same
  · cases same
  · have clean := word.clean c inside
    rw [same] at clean
    exact absurd clean (by decide)

theorem HHMM.plain {s : Text} (h : HHMM s) : s ≠ [] ∧ ' ' ∉ s := by
  obtain ⟨hours, minutes, early, short, rfl⟩ := h
  refine ⟨List.cons_ne_nil _ _, fun member => ?_⟩
  rw [clock, List.mem_append, List.mem_cons] at member
  rcases member with digit | colon | digit
  · exact absurd (twoDigits_digit (by omega) digit) (by decide)
  · cases colon
  · exact absurd (twoDigits_digit (by omega) digit) (by decide)

/-- What `parse_query` returns is not empty and holds no space. -/
theorem parse_query_plain {current_time query destination time : Text} (hm : HHMM current_time)
    (accepted : parse_query current_time query = some (destination, time)) :
    (destination ≠ [] ∧ ' ' ∉ destination) ∧ time ≠ [] ∧ ' ' ∉ time := by
  rw [parse_query] at accepted
  split at accepted
  · rename_i group1 found
    cases accepted
    obtain ⟨rest, _, found⟩ := Option.bind_eq_some_iff.mp found
    obtain ⟨⟨value, rest⟩, matched, found⟩ := Option.bind_eq_some_iff.mp found
    obtain ⟨_, same⟩ := Option.ite_none_right_eq_some.mp found
    cases same
    exact ⟨decode_url_word (matchValue_some matched), hm.plain⟩
  · obtain ⟨⟨group1, group2⟩, found, same⟩ := Option.map_eq_some_iff.mp accepted
    cases same
    obtain ⟨rest, _, found⟩ := Option.bind_eq_some_iff.mp found
    obtain ⟨⟨value, rest⟩, matched, found⟩ := Option.bind_eq_some_iff.mp found
    obtain ⟨rest, _, found⟩ := Option.bind_eq_some_iff.mp found
    obtain ⟨⟨value', rest⟩, matched', found⟩ := Option.bind_eq_some_iff.mp found
    obtain ⟨_, same⟩ := Option.ite_none_right_eq_some.mp found
    cases same
    exact ⟨decode_url_word (matchValue_some matched), decode_url_word (matchValue_some matched')⟩

/-! ### The init payload on the wire -/

theorem serialize_init (destination STATION_NAME starting_time : Text) :
    serialize (init_payload destination STATION_NAME starting_time) =
      "0 0 0 ".toList ++ ("    ".toList ++ (destination ++ ' ' :: (STATION_NAME ++ ' ' ::
        (starting_time ++ [';'])))) := by
  have zeros : printInt 0 = ['0'] := by decide
  have front : "0 0 0 ".toList = ['0', ' ', '0', ' ', '0', ' '] := by decide
  have spaces : "    ".toList = [' ', ' ', ' ', ' '] := by decide
  have empty : join [] = [] := rfl
  rw [front, spaces]
  simp only [serialize, init_payload, defaultPayload, zeros, empty, List.append_assoc, List.cons_append,
    List.nil_append, List.append_nil]

theorem sendto_init (destination STATION_NAME starting_time : Text) :
    sendto (serialize (init_payload destination STATION_NAME starting_time)) =
      serialize (init_payload (encode destination) (encode STATION_NAME) (encode starting_time)) := by
  have text : ∀ d s t, serialize (init_payload d s t) = (init_payload d s t).wired 4 := fun _ _ _ => serialize_eq _
  rw [text, text, sendto, encode_wired]
  rfl

/-- The C station reads an init payload with four more spaces than its own have. -/
theorem load_sent_init {destination source start_time : Text} (hd : Token ' ' 60 destination)
    (hs : Token ' ' 60 source) (ht : Token ';' 5 start_time) :
    load_payload (serialize (init_payload destination source start_time)) =
      .ok (init_payload destination source start_time) := by
  have zero : (0 : ℤ) ≤ 0 ∧ (0 : ℤ) ≤ INT_MAX := by decide
  have nothing : ∀ {n}, ∀ w ∈ ([] : List Text), Token ' ' n w := fun w member => absurd member List.not_mem_nil
  have loadable : (init_payload destination source start_time).Loadable :=
    ⟨⟨rfl, rfl, rfl, rfl⟩, zero, zero, zero, nothing, nothing, nothing, nothing, hd, hs, ht⟩
  obtain ⟨n, text⟩ := loadable.sized.serialize_wired
  rw [text]
  exact loadable.load_wired n

/-- The bytes of a text are a token if they are few enough and the text has neither the delimiter
nor a NUL. -/
theorem token_encode {delim : Char} (ascii : delim.toNat < 128) {limit : ℕ} {s : Text} (nonempty : s ≠ []) :
    Token delim limit (encode s) ↔ (delim ∉ s ∧ NUL ∉ s) ∧ (encode s).length ≤ limit := by
  have low : NUL.toNat < 128 := by decide
  constructor
  · intro token
    refine ⟨⟨?_, ?_⟩, token.short⟩
    · rw [← mem_encode ascii]
      exact fun member => absurd (token.delimited.clean delim member) (by simp)
    · rw [← mem_encode low]
      exact token.no_nul
  · rintro ⟨⟨plain, free⟩, short⟩
    refine ⟨⟨encode_ne_nil nonempty, fun c member => ?_⟩, short⟩
    rw [Bool.or_eq_false_iff, decide_eq_false_iff_not, decide_eq_false_iff_not]
    constructor
    · rintro rfl
      exact plain ((mem_encode ascii).mp member)
    · rintro rfl
      exact free ((mem_encode low).mp member)

/-- The C station reads what the request asked for exactly if the bytes fit its buffers, no NUL
stands in the destination, and neither a NUL nor a semicolon in the time. -/
theorem init_is_read_iff {current_time query destination starting_time : Text} (hm : HHMM current_time)
    (accepted : parse_query current_time query = some (destination, starting_time)) {STATION_NAME : Text}
    (own : Field 60 STATION_NAME) :
    (∃ p, load_payload (sendto (serialize (init_payload destination STATION_NAME starting_time))) = .ok p ∧
      p.destination = sendto destination ∧ p.source = sendto STATION_NAME ∧
      p.start_time = sendto starting_time ∧
      p.destination.length ≤ 60 ∧ p.source.length ≤ 60 ∧ p.start_time.length ≤ 5) ↔
    (NUL ∉ destination ∧ (sendto destination).length ≤ 60) ∧ (sendto STATION_NAME).length ≤ 60 ∧
      (';' ∉ starting_time ∧ NUL ∉ starting_time) ∧ (sendto starting_time).length ≤ 5 := by
  obtain ⟨⟨named, nospace⟩, timed, _⟩ := parse_query_plain hm accepted
  have clean := fun c member => unbroken (own.word.clean c member)
  have source := @token_encode ' ' (by decide) 60 _ own.word.nonempty
  have target := @token_encode ' ' (by decide) 60 _ named
  have start := @token_encode ';' (by decide) 5 _ timed
  rw [sendto_init]
  constructor
  · rintro ⟨p, loaded, same₁, same₂, same₃, _⟩
    rw [serialize_init] at loaded
    have loadable := (load_zeros loaded).1
    have h₁ := loadable.destination
    have h₂ := loadable.source
    have h₃ := loadable.start_time
    rw [same₁] at h₁
    rw [same₂] at h₂
    rw [same₃] at h₃
    obtain ⟨⟨_, free⟩, short⟩ := target.mp h₁
    exact ⟨⟨free, short⟩, h₂.short, start.mp h₃⟩
  · rintro ⟨⟨free, short₁⟩, short₂, plain, short₃⟩
    have h₁ := target.mpr ⟨⟨nospace, free⟩, short₁⟩
    have h₂ := source.mpr ⟨⟨fun member => (clean _ member).2.2.1 rfl, fun member => (clean _ member).2.2.2.2 rfl⟩, short₂⟩
    have h₃ := start.mpr ⟨plain, short₃⟩
    exact ⟨_, load_sent_init h₁ h₂ h₃, rfl, rfl, rfl, short₁, short₂, short₃⟩

/-- A request for StationB at eight, with the seconds. -/
def withSeconds : Text := "GET /?to=StationB&time=08:00:00 HTTP/1.1".toList

theorem withSeconds_accepted : parse_query "12:00".toList withSeconds =
    some ("StationB".toList, "08:00:00".toList) := by decide +kernel

theorem withSeconds_read_iff :
    (∃ p, load_payload (sendto (serialize (init_payload "StationB".toList "StationA".toList
        "08:00:00".toList))) = .ok p ∧
      p.destination = sendto "StationB".toList ∧ p.source = sendto "StationA".toList ∧
      p.start_time = sendto "08:00:00".toList ∧
      p.destination.length ≤ 60 ∧ p.source.length ≤ 60 ∧ p.start_time.length ≤ 5) ↔
    (NUL ∉ "StationB".toList ∧ (sendto "StationB".toList).length ≤ 60) ∧
      (sendto "StationA".toList).length ≤ 60 ∧
      (';' ∉ "08:00:00".toList ∧ NUL ∉ "08:00:00".toList) ∧ (sendto "08:00:00".toList).length ≤ 5 :=
  init_is_read_iff (by decide +kernel) withSeconds_accepted (by decide)

/-- The C station writes the seconds past the end of its buffer. -/
theorem withSeconds_overflow : parse_query "12:00".toList withSeconds =
      some ("StationB".toList, "08:00:00".toList) ∧ Field 60 "StationA".toList ∧
    load_payload (sendto (serialize (init_payload "StationB".toList "StationA".toList
      "08:00:00".toList))) = .error .overflow :=
  ⟨withSeconds_accepted, by decide, by decide +kernel⟩

end TransitNet
