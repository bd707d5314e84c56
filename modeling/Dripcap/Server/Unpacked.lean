import Dripcap.Server.Unpacker

/-!
# What the parser makes of bytes

The parser of an unpacker stops wherever the bytes run out, and goes on there when there are more.
What it has read of an object stands for values that are to come, depending on the bytes behind it
(`Context.decode`). A round of the parser changes nothing about them (`decode_round`), whatever it
refers to stays behind its position (`sound_round`), and it stops because of the bytes alone
(`stops_execute`).
-/

namespace Dripcap.Unpacker

open Polish MessagePack

/-! ### The states of the parser -/

/-- The number of bytes that the parser waits for outside of a header. -/
def Awaits (cs : UnpackState) (trail : ℕ) : Prop :=
  (cs, trail) ∈ trails ∨ 0 < trail ∧ cs ∈ [.strValue, .binValue, .extValue]

lemma awaits_pos {cs : UnpackState} {trail : ℕ} (h : Awaits cs trail) : 0 < trail := by
  rcases h with hmem | ⟨hpos, _⟩
  · exact (by decide : ∀ next ∈ trails, 0 < next.2) _ hmem
  · exact hpos

lemma awaits_ne_header {cs : UnpackState} {trail : ℕ} (h : Awaits cs trail) : cs ≠ .header := by
  rcases h with hmem | ⟨_, hmem⟩
  · exact (by decide : ∀ next ∈ trails, next.1 ≠ .header) _ hmem
  · exact (by decide : ∀ cs ∈ [UnpackState.strValue, .binValue, .extValue], cs ≠ .header) _ hmem

/-- Except for the bytes of a string, the state says how many bytes it waits for. -/
lemma awaits_lookup {cs : UnpackState} {trail : ℕ} (h : Awaits cs trail)
    (hvalue : cs ∉ [.strValue, .binValue, .extValue]) : trail = (trails.lookup cs).getD 0 := by
  rcases h with hmem | ⟨_, hmem⟩
  · exact (by decide : ∀ next ∈ trails, next.2 = (trails.lookup next.1).getD 0) _ hmem
  · exact absurd hmem hvalue

/-- What the rest of a token is read as. -/
def UnpackState.lex (cs : UnpackState) (trail : ℕ) (bytes : List UInt8) :
    Option (Polish.Token (Leaf Double) × List UInt8) :=
  match cs with
  | .header => MessagePack.lex loadFloat bytes
  | .float | .double => plain trail bytes fun data => .float (loadFloat data)
  | .uint8 | .uint16 | .uint32 | .uint64 =>
    plain trail bytes fun data => .integer (BigEndian.value data)
  | .int8 | .int16 | .int32 | .int64 => plain trail bytes fun data => .integer (signed data)
  | .fixext1 | .fixext2 | .fixext4 | .fixext8 | .fixext16 | .extValue => plain trail bytes .ext
  | .str8 | .str16 | .str32 => sized trail 0 bytes .str
  | .bin8 | .bin16 | .bin32 => sized trail 0 bytes .bin
  | .ext8 | .ext16 | .ext32 => sized trail 1 bytes .ext
  | .strValue => plain trail bytes .str
  | .binValue => plain trail bytes .bin
  | .array16 | .array32 => counted trail bytes .array
  | .map16 | .map32 => counted trail bytes .map

/-- The tokens with a byte in front of a size or a scalar, as the header leaves them. -/
lemma lexFormat_trails {k : ℕ} (hk : k < trails.length) (bytes : List UInt8) :
    lexFormat loadFloat (k + 4) bytes =
      (trails.getD k (.header, 0)).1.lex (trails.getD k (.header, 0)).2 bytes := by
  have hlt : k < 28 := hk
  interval_cases k <;> rfl

lemma awaits_trails {k : ℕ} (hk : k < trails.length) :
    Awaits (trails.getD k (.header, 0)).1 (trails.getD k (.header, 0)).2 := by
  rw [List.getD_eq_getElem?_getD, List.getElem?_eq_getElem hk]
  exact .inl (List.getElem_mem hk)

/-! ### The values to come -/

section Decode

variable (load : Slice → List UInt8)

/-- The values that come of what has begun, with the bytes of its strings, and of the bytes behind
it; and whether there is a byte then that no token begins with. -/
def decodeFrom (progress : Progress (Scalar Slice Double)) (bytes : List UInt8) :
    List (Term (Leaf Double)) × Bool :=
  (((progress.mapLeaves (Scalar.mapStrings load)).feed (tokens loadFloat bytes)).1,
    malformed loadFloat bytes)

/-- The values that come of a token and the bytes behind it, if it is complete. -/
def Context.resume (c : Context) (stuck : Bool) :
    Option (Polish.Token (Leaf Double) × List UInt8) → List (Term (Leaf Double)) × Bool
  | some (token, rest) =>
    (((Polish.read (c.stack.map (Frame.mapLeaves (Scalar.mapStrings load))) token).feed
      (tokens loadFloat rest)).1, malformed loadFloat rest)
  | none => ([], stuck)

/-- The values that come of a state of the parser and more bytes. -/
def Context.decode (c : Context) (bytes : List UInt8) : List (Term (Leaf Double)) × Bool :=
  c.resume load (c.cs = .header ∧ bytes.head? = some 0xc1) (c.cs.lex c.trail bytes)

/-- The values that come of a round, and of the bytes from `m_current` on with more behind them. -/
def Round.decode (data more : List UInt8) : Round → List (Term (Leaf Double)) × Bool
  | .next c current => c.decode load (data.drop current ++ more)
  | .wait c current => c.decode load (data.drop current ++ more)
  | .success obj _ current =>
    decodeFrom load (.complete obj) (data.drop current ++ more)
  | .parseError => ([], true)

variable {load} {c : Context} {buffer current : ℕ} {data : List UInt8} (more : List UInt8)

/-- At a header nothing of the next token has been read. -/
lemma decode_header (h : c.cs = .header) (bytes : List UInt8) :
    c.decode load bytes = decodeFrom load (.more c.stack) bytes := by
  rw [Context.decode, h, decodeFrom, Progress.mapLeaves, Progress.feed, UnpackState.lex]
  cases hlex : MessagePack.lex loadFloat bytes with
  | none =>
    rw [tokens_of_none hlex, malformed_of_none hlex]
    simp only [true_and]
    rfl
  | some r =>
    rw [tokens_of_lex hlex, malformed_of_lex hlex, feed_cons]
    rfl

/-- Behind an object the parser begins again. -/
lemma decodeFrom_complete (obj : Visited) (bytes : List UInt8) :
    decodeFrom load (.complete obj) bytes = (obj.mapLeaves (Scalar.mapStrings load) ::
      (({} : Context).decode load bytes).1, (({} : Context).decode load bytes).2) := by
  rw [decode_header rfl]
  rfl

lemma decode_startAggregate (token : Polish.Token (Scalar Slice Double)) :
    (c.startAggregate current token).decode load data more = c.resume load false
      (some (token.mapLeaves (Scalar.mapStrings load), data.drop current ++ more)) := by
  rw [Context.resume, read_mapLeaves, Context.startAggregate]
  cases Polish.read c.stack token with
  | more stack => exact decode_header rfl _
  | complete obj => rfl

lemma decode_visit (scalar : Scalar Slice Double) :
    (c.visit current scalar).decode load data more = c.resume load false
      (some (.leaf (scalar.mapStrings load), data.drop current ++ more)) :=
  decode_startAggregate more (.leaf scalar)

/-- The strings are in the buffer. -/
def Loads (load : Slice → List UInt8) (buffer : ℕ) (data : List UInt8) : Prop :=
  ∀ n size, n + size ≤ data.length → load ⟨buffer, n, size⟩ = (data.drop n).take size

/-- A leaf with a string in it. -/
def Makes (load : Slice → List UInt8) (make : Slice → Scalar Slice Double)
    (scalar : List UInt8 → Leaf Double) : Prop :=
  ∀ s, (make s).mapStrings load = scalar (load s)

variable {make : Slice → Scalar Slice Double} {scalar : List UInt8 → Leaf Double}

lemma decode_visitSlice (hload : Loads load buffer data) (hmake : Makes load make scalar) {n size : ℕ}
    (hle : n + size ≤ data.length) : (c.visitSlice buffer current make n size).decode load data more =
      c.resume load false (some (.leaf (scalar ((data.drop n).take size)),
        data.drop current ++ more)) := by
  rw [Context.visitSlice, decode_visit, hmake, hload n size hle]
  rfl

/-- A string without bytes is complete, any other is waited for. -/
lemma decode_sizeRead (hload : Loads load buffer data) (hmake : Makes load make scalar)
    {value : UnpackState} (hne : value ≠ .header)
    (hvalue : ∀ trail bytes, value.lex trail bytes = plain trail bytes scalar) {n : ℕ}
    (hn : n ≤ data.length) (trail : ℕ) :
    (c.sizeRead buffer current make value n trail).decode load data more =
      c.resume load false (plain trail (data.drop current ++ more) scalar) := by
  rw [Context.sizeRead]
  split_ifs with htrail
  · rw [decode_visitSlice more hload hmake hn, htrail]
    rfl
  · show Context.decode load _ _ = _
    rw [Context.decode, hvalue]
    simp only [hne, false_and, decide_false]
    rfl

end Decode

/-! ### A round of the parser -/

section Round

variable {load : Slice → List UInt8} {c : Context} {buffer current : ℕ} {data : List UInt8}
  (more : List UInt8)

lemma plain_of_le {trail : ℕ} (h : current + trail ≤ data.length)
    (scalar : List UInt8 → Leaf Double) : plain trail (data.drop current ++ more) scalar =
      some (.leaf (scalar ((data.drop current).take trail)),
        data.drop (current + trail) ++ more) := by
  have hle : trail ≤ (data.drop current).length := by rw [List.length_drop]; omega
  have hmore : trail ≤ (data.drop current ++ more).length := by rw [List.length_append]; omega
  rw [plain, if_pos hmore, List.take_append_of_le_length hle, List.drop_append_of_le_length hle,
    List.drop_drop]

lemma sized_of_le {trail : ℕ} (h : current + trail ≤ data.length) (extra : ℕ)
    (scalar : List UInt8 → Leaf Double) : sized trail extra (data.drop current ++ more) scalar =
      plain (BigEndian.value ((data.drop current).take trail) + extra)
        (data.drop (current + trail) ++ more) scalar := by
  have hle : trail ≤ (data.drop current).length := by rw [List.length_drop]; omega
  have hmore : trail ≤ (data.drop current ++ more).length := by rw [List.length_append]; omega
  rw [sized, if_pos hmore, List.take_append_of_le_length hle, List.drop_append_of_le_length hle,
    List.drop_drop]

lemma counted_of_le {trail : ℕ} (h : current + trail ≤ data.length)
    (token : ℕ → Polish.Token (Leaf Double)) : counted trail (data.drop current ++ more) token =
      some (token (BigEndian.value ((data.drop current).take trail)),
        data.drop (current + trail) ++ more) := by
  have hle : trail ≤ (data.drop current).length := by rw [List.length_drop]; omega
  have hmore : trail ≤ (data.drop current ++ more).length := by rw [List.length_append]; omega
  rw [counted, if_pos hmore, List.take_append_of_le_length hle, List.drop_append_of_le_length hle,
    List.drop_drop]

/-- An extension of a fixed size has one byte more, for its type. -/
lemma decode_fixext (hload : Loads load buffer data) {trail : ℕ} (h : current + trail ≤ data.length) :
    (c.visitSlice buffer (current + trail) .ext current trail).decode load data more =
      c.resume load false (plain trail (data.drop current ++ more) .ext) := by
  rw [decode_visitSlice more hload (fun _ => rfl) h, plain_of_le more h]

/-- A round with enough bytes for the rest of a size or a scalar. -/
lemma decode_trailing (hload : Loads load buffer data) (hawaits : Awaits c.cs c.trail)
    (h : current + c.trail ≤ data.length) :
    (c.trailing buffer current ((data.drop current).take c.trail)).decode load data more =
      c.decode load (data.drop current ++ more) := by
  have hne := awaits_ne_header hawaits
  have hstuck : decide (c.cs = .header ∧ (data.drop current ++ more).head? = some 0xc1) = false :=
    decide_eq_false fun hand => hne hand.1
  have hcurrent : current ≤ data.length := (Nat.le_add_right _ _).trans h
  rw [Context.decode, hstuck, Context.trailing]
  cases hcs : c.cs with
  | header => exact absurd hcs hne
  | float | double | uint8 | uint16 | uint32 | uint64 | int8 | int16 | int32 | int64 =>
    rw [decode_visit, UnpackState.lex, plain_of_le more h]
    rfl
  | fixext1 | fixext2 | fixext4 | fixext8 | fixext16 =>
    rw [hcs] at hawaits
    rw [awaits_lookup hawaits (by decide)] at h ⊢
    exact decode_fixext more hload h
  | str8 | str16 | str32 =>
    exact (decode_sizeRead more hload (fun _ => rfl) (by decide) (fun _ _ => rfl) hcurrent _).trans
      (congrArg _ (sized_of_le more h 0 _).symm)
  | bin8 | bin16 | bin32 =>
    exact (decode_sizeRead more hload (fun _ => rfl) (by decide) (fun _ _ => rfl) hcurrent _).trans
      (congrArg _ (sized_of_le more h 0 _).symm)
  | ext8 | ext16 | ext32 =>
    exact (decode_sizeRead more hload (fun _ => rfl) (by decide) (fun _ _ => rfl) hcurrent _).trans
      (congrArg _ (sized_of_le more h 1 _).symm)
  | strValue | binValue | extValue =>
    rw [decode_visitSlice more hload (fun _ => rfl) h, UnpackState.lex, plain_of_le more h]
  | array16 | array32 | map16 | map32 =>
    rw [decode_startAggregate, UnpackState.lex, counted_of_le more h]
    rfl

/-- A round that begins with the first byte of a token. -/
lemma decode_selector (hload : Loads load buffer data) (hcs : c.cs = .header) {b : UInt8}
    {bytes : List UInt8} (hb : data.drop current = b :: bytes) :
    (c.header buffer current b.toNat).decode load data more =
      c.decode load (data.drop current ++ more) := by
  have hdrop : data.drop (current + 1) = bytes := by
    rw [← List.drop_drop, hb]
    rfl
  have hdecode : c.decode load (data.drop current ++ more) =
      c.resume load (b = 0xc1) (MessagePack.lex loadFloat (b :: (bytes ++ more))) := by
    rw [Context.decode, hcs, hb]
    simp only [true_and, List.cons_append, List.head?_cons, Option.some.injEq]
    rfl
  have hlt := b.toNat_lt
  have hstuck : b.toNat ≠ 0xc1 → decide (b = 0xc1) = false := by
    intro hne
    refine decide_eq_false fun heq => hne ?_
    rw [heq]
    rfl
  have hand (n : ℕ) : b.toNat &&& 2 ^ n - 1 = b.toNat % 2 ^ n := Nat.and_two_pow_sub_one_eq_mod _ n
  rw [hdecode, Context.header, ← hdrop]
  by_cases hpositive : b.toNat ≤ 0x7f
  · rw [if_pos hpositive, lex_positive _ _ (by omega)]
    exact decode_visit more _
  rw [if_neg hpositive]
  by_cases hnegative : 0xe0 ≤ b.toNat
  · rw [if_pos hnegative, lex_negative _ _ hnegative]
    exact decode_visit more _
  rw [if_neg hnegative]
  by_cases htrail : 0xc4 ≤ b.toNat
  · obtain ⟨k, hk⟩ : ∃ k, b.toNat = k + 0xc4 := ⟨b.toNat - 0xc4, by omega⟩
    have hlength : k < trails.length := by
      show k < 28
      omega
    have hindex : b.toNat - 0xc4 = k := by omega
    have hne := awaits_ne_header (awaits_trails hlength)
    rw [if_pos htrail, hstuck (by omega), lex_tag _ _ (k + 4) (by omega) (by omega),
      lexFormat_trails hlength, hindex]
    simp only [Round.decode, Context.decode, hne, false_and, decide_false]
    rfl
  rw [if_neg htrail]
  by_cases hstr : 0xa0 ≤ b.toNat ∧ b.toNat ≤ 0xbf
  · have hsize : b.toNat &&& 0x1f = b.toNat - 0xa0 := (hand 5).trans (by omega)
    rw [if_pos hstr, hstuck (by omega), hsize, lex_smallStr _ _ hstr.1 (by omega)]
    exact decode_sizeRead more hload (fun _ => rfl) (by decide) (fun _ _ => rfl) (Nat.zero_le _) _
  rw [if_neg hstr]
  by_cases harray : 0x90 ≤ b.toNat ∧ b.toNat ≤ 0x9f
  · have hsize : b.toNat &&& 0x0f = b.toNat - 0x90 := (hand 4).trans (by omega)
    rw [if_pos harray, hsize, lex_smallArray _ _ harray.1 (by omega)]
    exact decode_startAggregate more _
  rw [if_neg harray]
  by_cases hmap : 0x80 ≤ b.toNat ∧ b.toNat ≤ 0x8f
  · have hsize : b.toNat &&& 0x0f = b.toNat - 0x80 := (hand 4).trans (by omega)
    rw [if_pos hmap, hsize, lex_smallMap _ _ hmap.1 (by omega)]
    exact decode_startAggregate more _
  rw [if_neg hmap]
  by_cases hfalse : b.toNat = 0xc2
  · rw [if_pos hfalse, lex_tag _ _ 2 hfalse (by decide)]
    exact decode_visit more _
  rw [if_neg hfalse]
  by_cases htrue : b.toNat = 0xc3
  · rw [if_pos htrue, lex_tag _ _ 3 htrue (by decide)]
    exact decode_visit more _
  rw [if_neg htrue]
  by_cases hnil : b.toNat = 0xc0
  · rw [if_pos hnil, lex_tag _ _ 0 hnil (by decide)]
    exact decode_visit more _
  -- no token begins with the byte that is left
  have hbyte : b.toNat = 0xc1 := by omega
  rw [if_neg hnil, lex_tag _ _ 1 hbyte (by decide), decide_eq_true (UInt8.toNat_inj.mp hbyte)]
  rfl

/-- A round changes nothing about the values to come. -/
lemma decode_round (hload : Loads load buffer data) (hcs : c.cs = .header ∨ Awaits c.cs c.trail)
    (hle : current ≤ data.length) : (c.round buffer data current).decode load data more =
      c.decode load (data.drop current ++ more) := by
  rw [Context.round]
  split
  · rename_i hheader
    cases hget : data[current]? with
    | none => rfl
    | some b =>
      obtain ⟨hlt, hb⟩ := List.getElem?_eq_some_iff.mp hget
      have hdrop : data.drop current = b :: data.drop (current + 1) := by
        rw [List.drop_eq_getElem_cons hlt, hb]
      exact decode_selector more hload hheader hdrop
  · rename_i hne
    split_ifs with hlt
    · rfl
    · exact decode_trailing more hload (hcs.resolve_left hne) (by omega)

end Round

/-! ### What a round refers to -/

/-- A string is in an earlier buffer, or in the part of this one that has been parsed, and it is
known then that there is one. -/
def Refers (buffer current : ℕ) (referenced : Bool) (s : Slice) : Prop :=
  s.buffer < buffer ∨ s.buffer = buffer ∧ referenced = true ∧ s.start + s.size ≤ current

/-- All strings of what has begun are behind the position of the parser. -/
def Context.Parsed (c : Context) (buffer current : ℕ) : Prop :=
  ∀ a ∈ c.stack.flatMap Frame.leaves, ∀ s ∈ a.strings, Refers buffer current c.referenced s

/-- A state in which the parser can go on. -/
structure Context.Sound (c : Context) (buffer current : ℕ) : Prop where
  parsed : c.Parsed buffer current
  awaits : c.cs = .header ∨ Awaits c.cs c.trail

/-- A round goes forward, or there are not enough bytes. -/
def Round.Sound (before : Context) (buffer current : ℕ) (data : List UInt8) : Round → Prop
  | .next c current' => c.Sound buffer current' ∧ current < current' ∧ current' ≤ data.length
  | .wait c current' => c = before ∧ current' = current ∧
    c.cs.lex c.trail (data.drop current) = none ∧ ¬ (c.cs = .header ∧ current < data.length)
  | .success _ _ current' => current < current' ∧ current' ≤ data.length
  | .parseError => True

section Sound

variable {c before : Context} {buffer current current' : ℕ} {data : List UInt8}

lemma Refers.mono {referenced referenced' : Bool} {s : Slice}
    (h : Refers buffer current referenced s) (hle : current ≤ current')
    (himp : referenced = true → referenced' = true) : Refers buffer current' referenced' s :=
  h.imp_right fun ⟨heq, href, hend⟩ => ⟨heq, himp href, hend.trans hle⟩

lemma sound_startAggregate (hc : c.Parsed buffer current) (hlt : current < current')
    (hle : current' ≤ data.length) {token : Polish.Token (Scalar Slice Double)}
    (htoken : ∀ a, token = .leaf a → ∀ s ∈ a.strings, Refers buffer current' c.referenced s) :
    (c.startAggregate current' token).Sound before buffer current data := by
  have hleaves : ∀ a ∈ (Polish.read c.stack token).leaves, ∀ s ∈ a.strings,
      Refers buffer current' c.referenced s := by
    intro a ha s hs
    rcases leaves_read token c.stack ha with heq | hmem
    · exact htoken a heq s hs
    · exact (hc a hmem s hs).mono hlt.le id
  rw [Context.startAggregate]
  cases hread : Polish.read c.stack token with
  | more stack =>
    rw [hread] at hleaves
    exact ⟨⟨hleaves, .inl rfl⟩, hlt, hle⟩
  | complete obj => exact ⟨hlt, hle⟩

lemma sound_visit (hc : c.Parsed buffer current) (hlt : current < current')
    (hle : current' ≤ data.length) {scalar : Scalar Slice Double}
    (hscalar : ∀ s ∈ scalar.strings, Refers buffer current' c.referenced s) :
    (c.visit current' scalar).Sound before buffer current data := by
  refine sound_startAggregate hc hlt hle fun a ha => ?_
  obtain rfl := Polish.Token.leaf.inj ha
  exact hscalar

/-- A value without a string refers to nothing. -/
lemma sound_visit_of_strings (hc : c.Parsed buffer current) (hlt : current < current')
    (hle : current' ≤ data.length) {scalar : Scalar Slice Double} (hstrings : scalar.strings = []) :
    (c.visit current' scalar).Sound before buffer current data := by
  refine sound_visit hc hlt hle fun s hs => ?_
  rw [hstrings] at hs
  exact absurd hs List.not_mem_nil

lemma sound_visitSlice (hc : c.Parsed buffer current) (hlt : current < current')
    (hle : current' ≤ data.length) {make : Slice → Scalar Slice Double}
    (hmake : ∀ s, (make s).strings = [s]) {n size : ℕ} (hn : n + size ≤ current') :
    (c.visitSlice buffer current' make n size).Sound before buffer current data := by
  have href : ({ c with referenced := true } : Context).Parsed buffer current :=
    fun a ha s hs => (hc a ha s hs).mono le_rfl fun _ => rfl
  refine sound_visit href hlt hle fun s hs => ?_
  rw [hmake, List.mem_singleton] at hs
  subst hs
  exact .inr ⟨rfl, rfl, hn⟩

lemma sound_sizeRead (hc : c.Parsed buffer current) (hlt : current < current')
    (hle : current' ≤ data.length) {make : Slice → Scalar Slice Double}
    (hmake : ∀ s, (make s).strings = [s]) {value : UnpackState}
    (hvalue : value ∈ [.strValue, .binValue, .extValue]) {n : ℕ} (hn : n ≤ current') (trail : ℕ) :
    (c.sizeRead buffer current' make value n trail).Sound before buffer current data := by
  rw [Context.sizeRead]
  split_ifs with htrail
  · exact sound_visitSlice hc hlt hle hmake hn
  · refine ⟨⟨fun a ha s hs => ?_, .inr (.inr ⟨Nat.pos_of_ne_zero htrail, hvalue⟩)⟩, hlt, hle⟩
    exact (hc a ha s hs).mono hlt.le id

lemma sound_header (hc : c.Parsed buffer current) (hle : current + 1 ≤ data.length) {selector : ℕ}
    (hselector : selector < 256) :
    (c.header buffer current selector).Sound before buffer current data := by
  have hlt : current < current + 1 := Nat.lt_succ_self _
  rw [Context.header]
  by_cases hpositive : selector ≤ 0x7f
  · rw [if_pos hpositive]
    exact sound_visit_of_strings hc hlt hle rfl
  rw [if_neg hpositive]
  by_cases hnegative : 0xe0 ≤ selector
  · rw [if_pos hnegative]
    exact sound_visit_of_strings hc hlt hle rfl
  rw [if_neg hnegative]
  by_cases htrail : 0xc4 ≤ selector
  · rw [if_pos htrail]
    have hlength : selector - 0xc4 < trails.length := by
      show selector - 0xc4 < 28
      omega
    have hawaits := awaits_trails hlength
    generalize trails.getD (selector - 0xc4) (.header, 0) = next at hawaits ⊢
    refine ⟨⟨fun a ha s hs => ?_, .inr hawaits⟩, hlt, hle⟩
    exact (hc a ha s hs).mono hlt.le id
  rw [if_neg htrail]
  by_cases hstr : 0xa0 ≤ selector ∧ selector ≤ 0xbf
  · rw [if_pos hstr]
    exact sound_sizeRead hc hlt hle (fun _ => rfl) (by decide) (Nat.zero_le _) _
  rw [if_neg hstr]
  by_cases harray : 0x90 ≤ selector ∧ selector ≤ 0x9f
  · rw [if_pos harray]
    exact sound_startAggregate hc hlt hle fun _ ha => by cases ha
  rw [if_neg harray]
  by_cases hmap : 0x80 ≤ selector ∧ selector ≤ 0x8f
  · rw [if_pos hmap]
    exact sound_startAggregate hc hlt hle fun _ ha => by cases ha
  rw [if_neg hmap]
  by_cases hfalse : selector = 0xc2
  · rw [if_pos hfalse]
    exact sound_visit_of_strings hc hlt hle rfl
  rw [if_neg hfalse]
  by_cases htrue : selector = 0xc3
  · rw [if_pos htrue]
    exact sound_visit_of_strings hc hlt hle rfl
  rw [if_neg htrue]
  by_cases hnil : selector = 0xc0
  · rw [if_pos hnil]
    exact sound_visit_of_strings hc hlt hle rfl
  rw [if_neg hnil]
  trivial

lemma sound_trailing (hc : c.Parsed buffer current) (hawaits : Awaits c.cs c.trail)
    (hle : current + c.trail ≤ data.length) (load : List UInt8) :
    (c.trailing buffer current load).Sound before buffer current data := by
  have hlt : current < current + c.trail := Nat.lt_add_of_pos_right (awaits_pos hawaits)
  have hn := Nat.le_add_right current c.trail
  rw [Context.trailing]
  cases hcs : c.cs with
  | header => trivial
  | float | double | uint8 | uint16 | uint32 | uint64 | int8 | int16 | int32 | int64 =>
    exact sound_visit_of_strings hc hlt hle rfl
  | fixext1 | fixext2 | fixext4 | fixext8 | fixext16 =>
    rw [hcs] at hawaits
    refine sound_visitSlice hc hlt hle (fun _ => rfl) ?_
    rw [awaits_lookup hawaits (by decide)]
    exact le_rfl
  | str8 | str16 | str32 | bin8 | bin16 | bin32 | ext8 | ext16 | ext32 =>
    exact sound_sizeRead hc hlt hle (fun _ => rfl) (by decide) hn _
  | strValue | binValue | extValue => exact sound_visitSlice hc hlt hle (fun _ => rfl) le_rfl
  | array16 | array32 | map16 | map32 => exact sound_startAggregate hc hlt hle fun _ ha => by cases ha

lemma lex_of_lt {cs : UnpackState} {trail : ℕ} (h : Awaits cs trail) {bytes : List UInt8}
    (hlt : bytes.length < trail) : cs.lex trail bytes = none := by
  have hnot : ¬ trail ≤ bytes.length := not_le.mpr hlt
  cases cs with
  | header => exact absurd rfl (awaits_ne_header h)
  | _ => exact if_neg hnot

lemma sound_round (hc : c.Sound buffer current) (hle : current ≤ data.length) :
    (c.round buffer data current).Sound c buffer current data := by
  rw [Context.round]
  split
  · rename_i hheader
    cases hget : data[current]? with
    | none =>
      have hend := List.getElem?_eq_none_iff.mp hget
      refine ⟨rfl, rfl, ?_, fun ⟨_, hlt⟩ => absurd hlt (not_lt.mpr hend)⟩
      rw [hheader, List.drop_eq_nil_of_le hend]
      rfl
    | some b =>
      obtain ⟨hlt, _⟩ := List.getElem?_eq_some_iff.mp hget
      exact sound_header hc.parsed hlt b.toNat_lt
  · rename_i hne
    have hawaits := hc.awaits.resolve_left hne
    split_ifs with hlt
    · refine ⟨rfl, rfl, lex_of_lt hawaits ?_, fun ⟨hheader, _⟩ => hne hheader⟩
      rwa [List.length_drop]
    · exact sound_trailing hc.parsed hawaits (by omega) _

end Sound

/-! ### A call of `execute` -/

/-- The parser has stopped because there are not enough bytes, or behind an object. -/
def Round.Stops (before : Context) (buffer current : ℕ) (data : List UInt8) : Round → Prop
  | .next _ _ => False
  | .wait c current' => c.Sound buffer current' ∧ current' ≤ data.length ∧
    (c = before ∧ current' = current ∨ current < current') ∧
    ∀ load, c.decode load (data.drop current') = ([], false)
  | .success _ _ current' => current < current' ∧ current' ≤ data.length
  | .parseError => True

section Execute

variable {c : Context} {buffer current : ℕ} {data : List UInt8}

lemma Round.Stops.mono {r : Round} {c' : Context} {current' : ℕ} (h : r.Stops c' buffer current' data)
    (hlt : current < current') : r.Stops c buffer current data := by
  cases r with
  | next => exact h
  | wait c'' current'' =>
    obtain ⟨hc, hle, hforward, hdecode⟩ := h
    refine ⟨hc, hle, .inr ?_, hdecode⟩
    rcases hforward with ⟨_, rfl⟩ | hlt'
    · exact hlt
    · exact hlt.trans hlt'
  | success => exact h.imp_left hlt.trans
  | parseError => trivial

lemma decode_stuck (hlex : c.cs.lex c.trail (data.drop current) = none)
    (hheader : ¬ (c.cs = .header ∧ current < data.length)) (load : Slice → List UInt8) :
    c.decode load (data.drop current) = ([], false) := by
  have hstuck : ¬ (c.cs = .header ∧ (data.drop current).head? = some 0xc1) := by
    rintro ⟨hcs, hhead⟩
    refine hheader ⟨hcs, ?_⟩
    have hne : data.drop current ≠ [] := by
      intro hnil
      rw [hnil] at hhead
      cases hhead
    rw [ne_eq, List.drop_eq_nil_iff] at hne
    omega
  rw [Context.decode, hlex, decide_eq_false hstuck]
  rfl

lemma stops_execute (hc : c.Sound buffer current) (hle : current ≤ data.length) {rounds : ℕ}
    (hrounds : data.length - current ≤ rounds) :
    (c.execute buffer data current rounds).Stops c buffer current data := by
  induction rounds generalizing c current with
  | zero =>
    have hend : ¬ (c.cs = .header ∧ current < data.length) := by omega
    refine ⟨hc, hle, .inl ⟨rfl, rfl⟩, decode_stuck ?_ hend⟩
    rw [List.drop_eq_nil_of_le (by omega)]
    rcases hc.awaits with hheader | hawaits
    · rw [hheader]
      rfl
    · exact lex_of_lt hawaits (awaits_pos hawaits)
  | succ rounds ih =>
    have hround := sound_round hc hle
    rw [Context.execute]
    cases heq : c.round buffer data current with
    | next c' current' =>
      rw [heq] at hround
      obtain ⟨hc', hlt, hle'⟩ := hround
      exact (ih hc' hle' (by omega)).mono hlt
    | wait c' current' =>
      rw [heq] at hround
      obtain ⟨rfl, rfl, hlex, hheader⟩ := hround
      exact ⟨hc, hle, .inl ⟨rfl, rfl⟩, decode_stuck hlex hheader⟩
    | success obj referenced current' =>
      rw [heq] at hround
      exact hround
    | parseError => trivial

lemma decode_execute {load : Slice → List UInt8} (hload : Loads load buffer data)
    (hc : c.Sound buffer current) (hle : current ≤ data.length) (more : List UInt8) (rounds : ℕ) :
    (c.execute buffer data current rounds).decode load data more =
      c.decode load (data.drop current ++ more) := by
  induction rounds generalizing c current with
  | zero => rfl
  | succ rounds ih =>
    have hround := sound_round hc hle
    rw [Context.execute, ← decode_round more hload hc.awaits hle]
    cases heq : c.round buffer data current with
    | next c' current' =>
      rw [heq] at hround
      exact ih hround.1 hround.2.2
    | wait | success | parseError => rfl

/-- The first value of the bytes. -/
lemma unpack_eq (data : List UInt8) : unpack data = (values loadFloat data).head? := by
  have hload : Loads (fun s => (data.drop s.start).take s.size) 0 data := fun _ _ _ => rfl
  have hsound : ({} : Context).Sound 0 0 := ⟨nofun, .inl rfl⟩
  have hstops := stops_execute hsound (Nat.zero_le data.length) (Nat.sub_le data.length 0)
  have hdecode := decode_execute hload hsound (Nat.zero_le _) [] data.length
  rw [decode_header rfl, List.drop_zero, List.append_nil] at hdecode
  rw [unpack]
  split_ifs with hempty
  · rw [List.eq_nil_of_length_eq_zero (Nat.le_zero.mp hempty)]
    rfl
  · cases hexecute : ({} : Context).execute 0 data 0 data.length with
    | next =>
      rw [hexecute] at hstops
      exact hstops.elim
    | wait c current =>
      rw [hexecute] at hstops hdecode
      have hvalues : values loadFloat data = [] := by
        have hfst := congrArg Prod.fst hdecode
        rw [Round.decode, List.append_nil, hstops.2.2.2] at hfst
        exact hfst.symm
      rw [hvalues]
      rfl
    | success obj referenced current =>
      rw [hexecute] at hdecode
      rw [show values loadFloat data = _ from (congrArg Prod.fst hdecode).symm]
      rfl
    | parseError =>
      rw [hexecute] at hdecode
      rw [show values loadFloat data = _ from (congrArg Prod.fst hdecode).symm]
      rfl

end Execute

end Dripcap.Unpacker
