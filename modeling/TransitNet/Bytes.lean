import TransitNet.Codec
import TransitNet.Utf8

/-! The two codecs meet in bytes: a C station holds the bytes of a text, a Python station its
characters. -/
namespace TransitNet
open Words Utf8

/-- `message.encode('utf-8')`, as the C station receives it. -/
def sendto (message : Text) : Text := encode message

/-- The payload as a C station holds it. -/
def PAYLOAD.encoded (p : PAYLOAD) : PAYLOAD :=
  { p with
    stations := p.stations.map encode
    address := p.address.map encode
    routes := p.routes.map encode
    time := p.time.map encode
    destination := encode p.destination
    source := encode p.source
    start_time := encode p.start_time }

/-- A field that both programs can hold: its bytes fit a buffer of the C station. -/
structure Portable (limit : ℕ) (s : Text) : Prop where
  word : Word breaks s
  short : (encode s).length ≤ limit

instance (limit : ℕ) (s : Text) : Decidable (Portable limit s) :=
  decidable_of_iff ((!s.isEmpty && s.all (!breaks ·) && (encode s).length ≤ limit) = true) (by
    simp only [Bool.and_eq_true, Bool.not_eq_true', List.isEmpty_eq_false_iff, List.all_eq_true,
      decide_eq_true_eq]
    exact ⟨fun h => ⟨⟨h.1.1, h.1.2⟩, h.2⟩, fun h => ⟨⟨h.word.nonempty, h.word.clean⟩, h.short⟩⟩)

/-- A payload that both programs can hold. -/
structure PAYLOAD.Portable (p : PAYLOAD) : Prop where
  sized : p.Sized
  found : 0 ≤ p.found ∧ p.found ≤ INT_MAX
  hops : 0 ≤ p.hops ∧ p.hops ≤ INT_MAX
  current : 0 ≤ p.current ∧ p.current ≤ INT_MAX
  stations : ∀ s ∈ p.stations, TransitNet.Portable 60 s
  address : ∀ s ∈ p.address, TransitNet.Portable 54 s
  routes : ∀ s ∈ p.routes, TransitNet.Portable 60 s
  time : ∀ s ∈ p.time, TransitNet.Portable 5 s
  destination : TransitNet.Portable 60 p.destination
  source : TransitNet.Portable 60 p.source
  start_time : TransitNet.Portable 5 p.start_time

/-! ### Encoding the separators and the counters -/

theorem encode_low {c : Char} (ascii : c.toNat < 128) (s : Text) : encode (c :: s) = c :: encode s := by
  rw [encode_cons, bytes_ascii ascii, List.singleton_append]

theorem digit_ascii {c : Char} (digit : c.isDigit = true) : c.toNat < 128 := by
  rw [Char.isDigit, Bool.and_eq_true, decide_eq_true_eq, decide_eq_true_eq] at digit
  have high := UInt32.le_iff_toNat_le.mp digit.2
  have nine : ('9'.val).toNat = 57 := by decide
  have same : c.val.toNat = c.toNat := rfl
  omega

theorem printInt_ascii (i : ℤ) : ∀ c ∈ printInt i, c.toNat < 128 := by
  have digits : ∀ c ∈ Nat.toDigits 10 i.natAbs, c.toNat < 128 := fun c member =>
    digit_ascii (toDigits_digit member)
  rw [printInt]
  split
  · intro c member
    rcases List.mem_cons.mp member with rfl | later
    · decide
    · exact digits c later
  · exact digits

theorem encode_spaced (ws : List Text) : encode (spaced ' ' ws) = spaced ' ' (ws.map encode) := by
  induction ws with
  | nil => rfl
  | cons w ws ih =>
      rw [spaced_cons, encode_low (by decide), encode_append, ih, List.map_cons, spaced_cons]

theorem encode_replicate (n : ℕ) : encode (List.replicate n ' ') = List.replicate n ' ' :=
  encode_ascii fun c member => by
    rw [List.eq_of_mem_replicate member]
    decide

theorem encode_header (p : PAYLOAD) (rest : Text) : encode (p.header rest) = p.encoded.header (encode rest) := by
  have space : (' ' : Char).toNat < 128 := by decide
  simp only [PAYLOAD.header, PAYLOAD.encoded, encode_append, encode_low space, encode_ascii (printInt_ascii _)]

theorem encode_body (p : PAYLOAD) : encode p.body = p.encoded.body := by
  have space : (' ' : Char).toNat < 128 := by decide
  simp only [PAYLOAD.body, PAYLOAD.encoded, encode_append, encode_low space, encode_spaced]

/-- The bytes of a payload's text are the text of its bytes. -/
theorem encode_wired (p : PAYLOAD) (n : ℕ) : encode (p.wired n) = p.encoded.wired n := by
  have semicolon : encode [';'] = [';'] := by decide
  simp only [PAYLOAD.wired, encode_header, encode_append, encode_replicate, encode_body, semicolon]

/-! ### What one program writes, the other reads -/

section Exchange
variable {p : PAYLOAD}

theorem Portable.token {limit : ℕ} {s : Text} (h : Portable limit s) {delim : Char} (ascii : delim.toNat < 128)
    (special : breaks delim = true) : Token delim limit (encode s) := by
  refine ⟨⟨encode_ne_nil h.word.nonempty, fun c member => ?_⟩, h.short⟩
  rw [Bool.or_eq_false_iff, decide_eq_false_iff_not, decide_eq_false_iff_not]
  constructor
  · rintro rfl
    rw [h.word.clean c ((mem_encode ascii).mp member)] at special
    cases special
  · rintro rfl
    exact (unbroken (h.word.clean NUL ((mem_encode (by decide)).mp member))).2.2.2.2 rfl

theorem PAYLOAD.Sized.encoded (h : p.Sized) : p.encoded.Sized where
  stations := (congrArg Nat.cast (List.length_map ..)).trans h.stations
  address := (congrArg Nat.cast (List.length_map ..)).trans h.address
  routes := (congrArg Nat.cast (List.length_map ..)).trans h.routes
  time := (congrArg Nat.cast (List.length_map ..)).trans h.time

/-- The C station can carry the bytes. -/
theorem PAYLOAD.Portable.loadable (h : p.Portable) : p.encoded.Loadable := by
  have tokens : ∀ {limit : ℕ} {ws : List Text}, (∀ w ∈ ws, TransitNet.Portable limit w) →
      ∀ w ∈ ws.map encode, Token ' ' limit w := by
    intro limit ws portable w member
    obtain ⟨s, inside, rfl⟩ := List.mem_map.mp member
    exact (portable s inside).token (by decide) (by decide)
  exact
    { sized := h.sized.encoded
      found := h.found
      hops := h.hops
      current := h.current
      stations := tokens h.stations
      address := tokens h.address
      routes := tokens h.routes
      time := tokens h.time
      destination := h.destination.token (by decide) (by decide)
      source := h.source.token (by decide) (by decide)
      start_time := h.start_time.token (by decide) (by decide) }

/-- The Python station can read the characters. -/
theorem PAYLOAD.Portable.legible (h : p.Portable) : p.Legible where
  sized := h.sized
  found := h.found.1
  current := h.current.1
  fields s member := by
    have word : Word breaks s := by
      simp only [PAYLOAD.fields, List.mem_append, List.mem_cons, List.not_mem_nil, or_false] at member
      rcases member with (((name | address) | route) | time) | rfl | rfl | rfl
      · exact (h.stations s name).word
      · exact (h.address s address).word
      · exact (h.routes s route).word
      · exact (h.time s time).word
      · exact h.destination.word
      · exact h.source.word
      · exact h.start_time.word
    exact word.mono breaks_parts

/-- Both read what either writes. -/
theorem PAYLOAD.Portable.read (h : p.Portable) (n : ℕ) : load_payload (encode (p.wired n)) = .ok p.encoded ∧
    (decode (encode (p.wired n))).map deserialize = some (.ok p) := by
  constructor
  · rw [encode_wired]
    exact h.loadable.load_wired n
  · rw [decode_encode, Option.map_some, h.legible.deserialized n]

/-- The two codecs are one format: either station reads the payload from the bytes that either has
written, the C station as bytes and the Python station as characters. -/
theorem codecs_are_one_format (p : PAYLOAD) (h : p.Portable) :
    (∃ text, craft_payload p.encoded = .ok text ∧ load_payload text = .ok p.encoded ∧
      (decode text).map deserialize = some (.ok p)) ∧
    load_payload (sendto (serialize p)) = .ok p.encoded ∧
    (decode (sendto (serialize p))).map deserialize = some (.ok p) := by
  constructor
  · refine ⟨p.encoded.wired 0, craft_payload_eq h.sized.encoded, ?_⟩
    rw [← encode_wired]
    exact h.read 0
  · obtain ⟨n, text⟩ := h.sized.serialize_wired
    rw [sendto, text]
    exact h.read n

end Exchange

/-- A payload on its way back to StationA, with a name that takes more bytes than characters. -/
def accented : PAYLOAD := { backtraced with routes := ["...".toList, "Métro".toList] }

theorem accented_portable : accented.Portable where
  sized := ⟨rfl, rfl, rfl, rfl⟩
  found := by decide
  hops := by decide
  current := by decide
  stations := by decide +kernel
  address := by decide +kernel
  routes := by decide +kernel
  time := by decide +kernel
  destination := by decide +kernel
  source := by decide +kernel
  start_time := by decide +kernel

theorem codecs_agree_on_accented :
    (∃ text, craft_payload accented.encoded = .ok text ∧ load_payload text = .ok accented.encoded ∧
      (decode text).map deserialize = some (.ok accented)) ∧
    load_payload (sendto (serialize accented)) = .ok accented.encoded ∧
    (decode (sendto (serialize accented))).map deserialize = some (.ok accented) :=
  codecs_are_one_format accented accented_portable

end TransitNet
