import Dripcap.Dissector.Analysis
import Dripcap.Library.Unicode
import Mathlib.Data.List.TakeWhile
import Mathlib.Data.Option.Basic

/-!
# The HTTP dissectors

The stream dissector of `http_stream.es` looks for a request line in the text of a payload and
makes a packet of the payload, with a layer that has the parts of the line as attributes. The
dissector of `http.es` pushes a field for each part, at the place where the part would be if the
packet began with the line and all characters were one byte.

`decode` is how the engine makes a string of the bytes of a `std::string`.
-/

namespace Dripcap

open Unicode

/-! ### Request lines -/

/-- The groups 1 to 3 of the pattern. -/
structure RequestLine where
  method : String
  path : String
  version : String
  deriving DecidableEq

namespace RequestLine

/-- `\s` of a regular expression. -/
def isSpace (c : Char) : Bool :=
  c.toNat ∈ [0x9, 0xa, 0xb, 0xc, 0xd, 0x20, 0xa0, 0x1680, 0x2028, 0x2029, 0x202f, 0x205f, 0x3000,
    0xfeff] || (0x2000 ≤ c.toNat && c.toNat ≤ 0x200a)

def methods : List String := ["GET", "POST"]

def versions : List String := ["HTTP/0.9", "HTTP/1.0", "HTTP/1.1"]

/-- A text that begins with one of these, and what follows. -/
def oneOf (texts : List String) (text : List Char) : Option (String × List Char) :=
  texts.findSome? fun t => (text.dropPrefix? t.toList).map fun rest => (t, rest)

/-- `/(GET|POST) (\S+) (HTTP\/(0\.9|1\.0|1\.1))\r\n/` at the beginning of a text. A space follows
`\S+`, so that it can only take all characters up to the next white space. -/
def matchHere (text : List Char) : Option RequestLine := do
  let (method, text) ← oneOf methods text
  let text ← text.dropPrefix? [' ']
  let path := text.takeWhile fun c => !isSpace c
  guard (path ≠ [])
  let text ← (text.dropWhile fun c => !isSpace c).dropPrefix? [' ']
  let (version, text) ← oneOf versions text
  let _ ← text.dropPrefix? ['\r', '\n']
  some ⟨method, String.ofList path, version⟩

/-- `body.match(re)` -/
def find : List Char → Option RequestLine
  | [] => none
  | c :: text => (matchHere (c :: text)).or (find text)

/-! ### What the pattern finds -/

/-- The text of a line. -/
def text (line : RequestLine) : List Char :=
  line.method.toList ++ ' ' :: (line.path.toList ++ ' ' :: (line.version.toList ++ ['\r', '\n']))

/-- The parts that a line can have. -/
structure Valid (line : RequestLine) : Prop where
  method_mem : line.method ∈ methods
  path_ne : line.path.toList ≠ []
  path_space : ∀ c ∈ line.path.toList, isSpace c = false
  version_mem : line.version ∈ versions

/-- A text begins with a line. -/
def Begins (line : RequestLine) (text : List Char) : Prop := line.Valid ∧ line.text <+: text

/-- The first line in a text. -/
def IsFirst (line : RequestLine) (text : List Char) : Prop :=
  ∃ before rest, text = before ++ rest ∧ line.Begins rest ∧
    ∀ before' rest', text = before' ++ rest' → before'.length < before.length →
      ∀ line' : RequestLine, ¬ line'.Begins rest'

lemma dropPrefix?_iff {pre text rest : List Char} :
    text.dropPrefix? pre = some rest ↔ text = pre ++ rest := by
  rw [List.dropPrefix?_eq_some_iff]
  simp

/-- None of the texts begins with another one. -/
def PrefixFree (texts : List String) : Prop :=
  ∀ t ∈ texts, ∀ t' ∈ texts, t.toList <+: t'.toList → t = t'

lemma oneOf_iff {texts : List String} {text rest : List Char} {t : String}
    (hfree : PrefixFree texts) :
    oneOf texts text = some (t, rest) ↔ t ∈ texts ∧ text = t.toList ++ rest := by
  have hsound : ∀ {t rest}, oneOf texts text = some (t, rest) →
      t ∈ texts ∧ text = t.toList ++ rest := by
    intro t rest h
    obtain ⟨t', ht', hmap⟩ := List.exists_of_findSome?_eq_some h
    obtain ⟨rest', hdrop, heq⟩ := Option.map_eq_some_iff.mp hmap
    obtain ⟨rfl, rfl⟩ := Prod.mk.inj heq
    exact ⟨ht', dropPrefix?_iff.mp hdrop⟩
  refine ⟨hsound, ?_⟩
  rintro ⟨ht, htext⟩
  cases hfound : oneOf texts text with
  | none =>
    have hnone := List.findSome?_eq_none_iff.mp hfound t ht
    rw [dropPrefix?_iff.mpr htext] at hnone
    cases hnone
  | some found =>
    obtain ⟨t', rest'⟩ := found
    obtain ⟨ht', htext'⟩ := hsound hfound
    have heq : t' = t := by
      have hpre : t.toList <+: text := ⟨rest, htext.symm⟩
      have hpre' : t'.toList <+: text := ⟨rest', htext'.symm⟩
      rcases List.prefix_or_prefix_of_prefix hpre hpre' with h | h
      · exact (hfree t ht t' ht' h).symm
      · exact hfree t' ht' t ht h
    subst heq
    rw [List.append_cancel_left (htext'.symm.trans htext)]

lemma prefixFree_methods : PrefixFree methods := by
  unfold PrefixFree
  decide

lemma prefixFree_versions : PrefixFree versions := by
  unfold PrefixFree
  decide

/-- The longest run without white space before a space. -/
lemma run_iff {text path rest : List Char} (hpath : ∀ c ∈ path, isSpace c = false) :
    (text.takeWhile (fun c => !isSpace c) = path ∧
      (text.dropWhile fun c => !isSpace c).dropPrefix? [' '] = some rest) ↔
      text = path ++ ' ' :: rest := by
  constructor
  · rintro ⟨rfl, hdrop⟩
    rw [dropPrefix?_iff] at hdrop
    conv_lhs => rw [← List.takeWhile_append_dropWhile (p := fun c => !isSpace c) (l := text)]
    rw [hdrop]
    rfl
  · rintro rfl
    have hall : ∀ c ∈ path, (!isSpace c) = true := fun c hc => by rw [hpath c hc]; rfl
    rw [List.takeWhile_append_of_pos hall, List.dropWhile_append_of_pos hall, dropPrefix?_iff]
    exact ⟨List.append_nil path, rfl⟩

lemma begins_iff {text : List Char} {line : RequestLine} : line.Begins text ↔ line.Valid ∧
    ∃ rest, text = line.method.toList ++ (' ' :: (line.path.toList ++ ' ' ::
      (line.version.toList ++ ('\r' :: '\n' :: rest)))) := by
  refine and_congr_right fun _ => exists_congr fun rest => ?_
  rw [RequestLine.text, eq_comm]
  simp

lemma matchHere_iff {text : List Char} {line : RequestLine} :
    matchHere text = some line ↔ line.Begins text := by
  rw [begins_iff]
  constructor
  · intro h
    obtain ⟨⟨method, text₁⟩, hmethod, h⟩ := Option.bind_eq_some_iff.mp h
    obtain ⟨text₂, hspace, h⟩ := Option.bind_eq_some_iff.mp h
    obtain ⟨_, hguard, h⟩ := Option.bind_eq_some_iff.mp h
    obtain ⟨text₃, hpath, h⟩ := Option.bind_eq_some_iff.mp h
    obtain ⟨⟨version, text₄⟩, hversion, h⟩ := Option.bind_eq_some_iff.mp h
    obtain ⟨rest, hend, h⟩ := Option.bind_eq_some_iff.mp h
    obtain rfl := Option.some.inj h
    obtain ⟨hmethod_mem, rfl⟩ := (oneOf_iff prefixFree_methods).mp hmethod
    obtain ⟨hversion_mem, rfl⟩ := (oneOf_iff prefixFree_versions).mp hversion
    obtain rfl := dropPrefix?_iff.mp hspace
    obtain rfl := dropPrefix?_iff.mp hend
    have hnone : ∀ c ∈ text₂.takeWhile (fun c => !isSpace c), isSpace c = false := by
      intro c hc
      simpa using List.mem_takeWhile_imp hc
    have htext := (run_iff hnone).mp ⟨rfl, hpath⟩
    refine ⟨⟨hmethod_mem, ?_, ?_, hversion_mem⟩, rest, ?_⟩
    · rw [String.toList_ofList]
      exact (Option.guard_eq_some' _).mp hguard
    · rwa [String.toList_ofList]
    · conv_lhs => rw [htext]
      rw [String.toList_ofList]
      rfl
  · rintro ⟨hvalid, rest, rfl⟩
    obtain ⟨hpath, hspace⟩ := (run_iff hvalid.path_space).mpr
      (rfl : line.path.toList ++ ' ' :: (line.version.toList ++ '\r' :: '\n' :: rest) = _)
    refine Option.bind_eq_some_iff.mpr
      ⟨_, (oneOf_iff prefixFree_methods).mpr ⟨hvalid.method_mem, rfl⟩, ?_⟩
    refine Option.bind_eq_some_iff.mpr ⟨_, dropPrefix?_iff.mpr rfl, ?_⟩
    refine Option.bind_eq_some_iff.mpr ⟨⟨⟩, ?_, ?_⟩
    · exact (Option.guard_eq_some' _).mpr (hpath.trans_ne hvalid.path_ne)
    refine Option.bind_eq_some_iff.mpr ⟨_, hspace, ?_⟩
    refine Option.bind_eq_some_iff.mpr
      ⟨_, (oneOf_iff prefixFree_versions).mpr ⟨hvalid.version_mem, rfl⟩, ?_⟩
    refine Option.bind_eq_some_iff.mpr ⟨rest, dropPrefix?_iff.mpr rfl, ?_⟩
    have hline := congrArg (fun path => RequestLine.mk line.method (String.ofList path)
      line.version) hpath
    rw [String.ofList_toList] at hline
    exact congrArg some hline

/-- The first line in a text is at its beginning, or no line is there and it is the first one after
the first character. -/
lemma isFirst_cons {c : Char} {text : List Char} {line : RequestLine} :
    line.IsFirst (c :: text) ↔ line.Begins (c :: text) ∨
      (∀ line' : RequestLine, ¬ line'.Begins (c :: text)) ∧ line.IsFirst text := by
  constructor
  · rintro ⟨before, rest, htext, hbegins, hfirst⟩
    cases before with
    | nil =>
      rw [List.nil_append] at htext
      exact .inl (htext ▸ hbegins)
    | cons d before =>
      obtain ⟨rfl, rfl⟩ := List.cons.inj htext
      refine .inr ⟨hfirst [] _ rfl (Nat.succ_pos _), before, rest, rfl, hbegins, ?_⟩
      intro before' rest' htext' hlt
      exact hfirst (c :: before') rest' (congrArg (c :: ·) htext') (Nat.succ_lt_succ hlt)
  · rintro (hbegins | ⟨hnone, before, rest, rfl, hbegins, hfirst⟩)
    · exact ⟨[], _, rfl, hbegins, fun _ _ _ h => absurd h (Nat.not_lt_zero _)⟩
    · refine ⟨c :: before, rest, rfl, hbegins, ?_⟩
      intro before' rest' htext' hlt
      cases before' with
      | nil =>
        rw [List.nil_append] at htext'
        exact htext' ▸ hnone
      | cons d before' =>
        exact hfirst before' rest' (List.cons.inj htext').2 (Nat.lt_of_succ_lt_succ hlt)

lemma not_isFirst_nil (line : RequestLine) : ¬ line.IsFirst [] := by
  rintro ⟨before, rest, htext, hbegins, -⟩
  obtain ⟨-, rfl⟩ := List.append_eq_nil_iff.mp htext.symm
  obtain ⟨-, rest, h⟩ := begins_iff.mp hbegins
  have hlength := congrArg List.length h
  simp at hlength

lemma find_iff {text : List Char} {line : RequestLine} :
    find text = some line ↔ line.IsFirst text := by
  induction text with
  | nil => exact iff_of_false nofun line.not_isFirst_nil
  | cons c text ih =>
    rw [isFirst_cons, find, Option.or_eq_some_iff, ih, matchHere_iff]
    refine or_congr_right (and_congr_left fun _ => ?_)
    simp only [Option.eq_none_iff_forall_ne_some, ne_eq, matchHere_iff]

lemma IsFirst.unique {text : List Char} {line line' : RequestLine} (h : line.IsFirst text)
    (h' : line'.IsFirst text) : line = line' :=
  Option.some.inj ((find_iff.mpr h).symm.trans (find_iff.mpr h'))

lemma IsFirst.valid {text : List Char} {line : RequestLine} (h : line.IsFirst text) :
    line.Valid := by
  obtain ⟨_, _, _, hbegins, _⟩ := h
  exact hbegins.1

lemma isAscii_methods : ∀ t ∈ methods, IsAscii t := by decide

lemma isAscii_versions : ∀ t ∈ versions, IsAscii t := by decide

lemma ne_nil_versions : ∀ t ∈ versions, t.toList ≠ [] := by decide

end RequestLine

/-! ### The stream dissector -/

/-- `StreamLayer`, with the packet of its own that has the bytes. -/
structure StreamLayer where
  name : String
  ns : String
  line : RequestLine
  src : Option Attr
  dst : Option Attr
  payload : Payload

lemma length_copy (data : Payload) : data.copy.length < 2 ^ 63 := by
  have hsize := data.size_lt
  rw [Payload.copy, Buffer.data, List.length_take, List.length_drop]
  omega

/-- The packet has a copy of the payload. -/
def copyOf (data : Payload) : Payload := Hex.ofVec data.copy (length_copy data)

lemma bytes_copyOf (data : Payload) : (copyOf data).bytes = data.bytes := List.take_length

/-- `analyze` of `http_stream.es`, with what it pushes to `output`. -/
def HTTPStreamDissector.analyze (decode : List UInt8 → String) (parentLayer : ParentLayer)
    (data : Payload) : List StreamLayer :=
  match data.toString decode "utf8" with
  | .error _ => []
  | .ok body => match RequestLine.find body.toList with
    | none => []
    | some m => [{
        name := "HTTP"
        ns := parentLayer.ns ++ "::<HTTP>"
        line := m
        src := parentLayer.attrs "src"
        dst := parentLayer.attrs "dst"
        payload := copyOf data }]

/-! ### The dissector -/

namespace HTTPDissector

/-- The attributes of a layer in another script: strings go there as bytes. -/
def attrs (decode : List UInt8 → String) (line : RequestLine) : RequestLine :=
  ⟨decode (utf8 line.method), decode (utf8 line.path), decode (utf8 line.version)⟩

/-- What `analyze` of `http.es` pushes to the fields of a layer with these attributes. -/
def fields (payload : Payload) (attrs : RequestLine) : List Field :=
  let method := units attrs.method
  let path := units attrs.path
  let version := units attrs.version
  [{ name := "Method", attr := some "method", data := payload.slice 0 method },
   { name := "Path", attr := some "path", data := payload.slice (method + 1) (method + 1 + path) },
   { name := "Version", attr := some "version"
     data := payload.slice (method + 1 + path + 1) (method + 1 + path + 1 + version) },
   { name := "Payload", value := some (.buffer payload.bytes), data := payload }]

/-- `analyze`: the layer of the packet gets the payload of the packet and the fields. -/
def analyze (decode : List UInt8 → String) (layer : StreamLayer) : List Field :=
  fields layer.payload (attrs decode layer.line)

end HTTPDissector

/-! ### Ranges -/

/-- The fields of the three parts have exactly the bytes of the attributes. -/
structure RangesMatch (fields : List Field) (attrs : RequestLine) : Prop where
  method : ∃ f ∈ fields, f.name = "Method" ∧ f.attr = some "method" ∧
    f.data.bytes = utf8 attrs.method
  path : ∃ f ∈ fields, f.name = "Path" ∧ f.attr = some "path" ∧ f.data.bytes = utf8 attrs.path
  version : ∃ f ∈ fields, f.name = "Version" ∧ f.attr = some "version" ∧
    f.data.bytes = utf8 attrs.version

section Ranges

variable {p : Payload} {before after : List UInt8} {t : String}

/-- A slice with as many bytes as a text has code units has the bytes of the text exactly when the
text is one of ASCII characters and its bytes are there. -/
lemma bytes_slice_iff {s : ℕ} (h : p.start + s < 2 ^ 64) :
    (p.slice s (s + units t)).bytes = utf8 t ↔ IsAscii t ∧ utf8 t <+: p.bytes.drop s := by
  have hslice : (p.slice s (s + units t)).bytes = (p.bytes.drop s).take (units t) := by
    rw [Payload.slice, Buffer.slice_bytes_of_lt p h (Nat.le_add_right _ _), ← p.length_bytes]
    rcases Nat.lt_or_ge p.bytes.length s with hlt | hle
    · rw [min_eq_right hlt.le, List.drop_eq_nil_of_le hlt.le, List.drop_eq_nil_of_le, List.take_nil]
      rw [List.length_take]
      omega
    · rw [min_eq_left hle, ← List.take_eq_take_min, List.drop_take, Nat.add_sub_cancel_left]
  rw [hslice, ← units_eq_iff]
  constructor
  · intro heq
    have hlength : (utf8 t).length ≤ units t := by
      rw [← heq]
      exact List.length_take_le _ _
    refine ⟨le_antisymm (units_le t) hlength, ?_⟩
    rw [← heq]
    exact List.take_prefix _ _
  · rintro ⟨hunits, rest, hrest⟩
    rw [hunits, ← hrest, List.take_left]

/-- The text of a slice that begins one byte behind what is known. -/
lemma bytes_slice_next_iff (hstart : p.start = 0) (hbytes : p.bytes = before ++ after)
    (ht : t.toList ≠ []) :
    (p.slice (before.length + 1) (before.length + 1 + units t)).bytes = utf8 t ↔
      IsAscii t ∧ ∃ x rest, after = x :: (utf8 t ++ rest) := by
  have hlt : p.start + (before.length + 1) < 2 ^ 64 := by
    have hlength := congrArg List.length hbytes
    rw [p.length_bytes, List.length_append] at hlength
    have hfin := p.fin_le
    have hsize := p.size_lt
    have hadd := p.start_add_length
    omega
  have hdrop : p.bytes.drop (before.length + 1) = after.drop 1 := by
    rw [hbytes, ← List.drop_drop, List.drop_left]
  rw [bytes_slice_iff hlt, hdrop]
  refine and_congr_right fun _ => ?_
  constructor
  · rintro ⟨rest, hrest⟩
    cases after with
    | nil =>
      have hnil := (List.append_eq_nil_iff.mp hrest).1
      rw [utf8_eq_nil_iff] at hnil
      exact absurd hnil ht
    | cons x after => exact ⟨x, rest, congrArg (x :: ·) hrest.symm⟩
  · rintro ⟨x, rest, rfl⟩
    exact ⟨rest, rfl⟩

/-- The three ranges of a packet. -/
lemma rangesMatch_fields {line : RequestLine} :
    RangesMatch (HTTPDissector.fields p line) line ↔
      (p.slice 0 (0 + units line.method)).bytes = utf8 line.method ∧
      (p.slice (units line.method + 1) (units line.method + 1 + units line.path)).bytes =
        utf8 line.path ∧
      (p.slice (units line.method + 1 + units line.path + 1)
        (units line.method + 1 + units line.path + 1 + units line.version)).bytes =
        utf8 line.version := by
  rw [Nat.zero_add]
  constructor
  · rintro ⟨hmethod, hpath, hversion⟩
    refine ⟨?_, ?_, ?_⟩
    · simpa [HTTPDissector.fields] using hmethod
    · simpa [HTTPDissector.fields] using hpath
    · simpa [HTTPDissector.fields] using hversion
  · rintro ⟨hmethod, hpath, hversion⟩
    exact {
      method := ⟨_, List.mem_cons_self, rfl, rfl, hmethod⟩
      path := ⟨_, List.mem_cons_of_mem _ List.mem_cons_self, rfl, rfl, hpath⟩
      version := ⟨_, List.mem_cons_of_mem _ (List.mem_cons_of_mem _ List.mem_cons_self), rfl, rfl,
        hversion⟩ }

/-- What the three ranges of a packet have. -/
lemma fields_iff {line : RequestLine} (hstart : p.start = 0) (hvalid : line.Valid) :
    RangesMatch (HTTPDissector.fields p line) line ↔ IsAscii line.path ∧ ∃ x y rest,
      p.bytes = utf8 line.method ++ x :: (utf8 line.path ++ y :: (utf8 line.version ++ rest)) := by
  have hmethod : IsAscii line.method := RequestLine.isAscii_methods _ hvalid.method_mem
  have hversion : IsAscii line.version := RequestLine.isAscii_versions _ hvalid.version_mem
  have hpath_ne := hvalid.path_ne
  have hversion_ne := RequestLine.ne_nil_versions _ hvalid.version_mem
  have hunits := (units_eq_iff line.method).mpr hmethod
  have hlength : IsAscii line.path → ∀ x, (utf8 line.method ++ x :: utf8 line.path).length =
      (utf8 line.method).length + 1 + units line.path := by
    intro hascii x
    rw [(units_eq_iff _).mpr hascii, List.length_append, List.length_cons]
    omega
  rw [rangesMatch_fields, bytes_slice_iff (by omega), List.drop_zero, hunits]
  constructor
  · rintro ⟨⟨-, after, hbytes⟩, hpath, hlast⟩
    obtain ⟨hascii, x, after', rfl⟩ := (bytes_slice_next_iff hstart hbytes.symm hpath_ne).mp hpath
    have hbytes' : p.bytes = (utf8 line.method ++ x :: utf8 line.path) ++ after' := by
      rw [← hbytes, List.append_assoc, List.cons_append]
    rw [← hlength hascii x] at hlast
    obtain ⟨-, y, rest, rfl⟩ := (bytes_slice_next_iff hstart hbytes' hversion_ne).mp hlast
    exact ⟨hascii, x, y, rest, hbytes.symm⟩
  · rintro ⟨hascii, x, y, rest, hbytes⟩
    have hbytes' : p.bytes = (utf8 line.method ++ x :: utf8 line.path) ++
        y :: (utf8 line.version ++ rest) := by
      rw [hbytes, List.append_assoc, List.cons_append]
    refine ⟨⟨hmethod, _, hbytes.symm⟩, ?_, ?_⟩
    · exact (bytes_slice_next_iff hstart hbytes hpath_ne).mpr ⟨hascii, x, _, rfl⟩
    · rw [← hlength hascii x]
      exact (bytes_slice_next_iff hstart hbytes' hversion_ne).mpr ⟨hversion, y, rest, rfl⟩

end Ranges

/-! ### What the dissectors do together -/

section Together

variable {decode : List UInt8 → String} {parentLayer : ParentLayer} {data : Payload}
  {layer : StreamLayer}

lemma mem_analyze_iff : layer ∈ HTTPStreamDissector.analyze decode parentLayer data ↔
    ∃ line : RequestLine, line.IsFirst (decode (data.vec.take data.length)).toList ∧
      layer = ⟨"HTTP", parentLayer.ns ++ "::<HTTP>", line, parentLayer.attrs "src",
        parentLayer.attrs "dst", copyOf data⟩ := by
  have htext : data.toString decode "utf8" = .ok (decode (data.vec.take data.length)) := rfl
  rw [HTTPStreamDissector.analyze, htext]
  simp only [← RequestLine.find_iff]
  cases hfind : RequestLine.find (decode (data.vec.take data.length)).toList with
  | none => simp
  | some line => simp

/-- The ranges of the fields have the bytes of the attributes exactly when the payload begins with
the three parts, each one byte behind the other, and the path has ASCII characters only. -/
theorem ranges_iff (hdecode : ∀ s, decode (utf8 s) = s)
    (h : layer ∈ HTTPStreamDissector.analyze decode parentLayer data) :
    RangesMatch (HTTPDissector.analyze decode layer) layer.line ↔
      ∃ line : RequestLine, line.IsFirst (decode (data.vec.take data.length)).toList ∧
        IsAscii line.path ∧ ∃ x y rest, data.bytes =
          utf8 line.method ++ x :: (utf8 line.path ++ y :: (utf8 line.version ++ rest)) := by
  obtain ⟨line, hfirst, rfl⟩ := mem_analyze_iff.mp h
  have hattrs : HTTPDissector.attrs decode line = line := by
    simp only [HTTPDissector.attrs, hdecode]
  have hvalid : line.Valid := hfirst.valid
  rw [HTTPDissector.analyze, hattrs, fields_iff rfl hvalid, bytes_copyOf]
  constructor
  · intro hbytes
    exact ⟨line, hfirst, hbytes⟩
  · rintro ⟨line', hfirst', hbytes⟩
    obtain rfl := hfirst.unique hfirst'
    exact hbytes

end Together

/-- The layer above a stream. -/
def streamParent : ParentLayer where
  ns := "::<Ethernet>::<IPv4>::<TCP>"
  payload := Hex.ofVec [] (by decide)
  fields := []
  attrs := fun _ => none
  layers := fun _ => none

/-- The layer for a line. -/
def streamLayer (line : RequestLine) (data : Payload) : StreamLayer :=
  ⟨"HTTP", "::<Ethernet>::<IPv4>::<TCP>::<HTTP>", line, none, none, copyOf data⟩

lemma streamLayer_mem {s : String} {line : RequestLine} {data : Payload}
    (hdata : data.vec.take data.length = utf8 s) (hfind : RequestLine.find s.toList = some line) :
    streamLayer line data ∈ HTTPStreamDissector.analyze ofUtf8 streamParent data := by
  rw [mem_analyze_iff, hdata, ofUtf8_utf8]
  exact ⟨line, RequestLine.find_iff.mp hfind, rfl⟩

lemma analyze_streamLayer (line : RequestLine) (data : Payload) :
    HTTPDissector.analyze ofUtf8 (streamLayer line data) =
      HTTPDissector.fields (copyOf data) line := by
  rw [HTTPDissector.analyze, HTTPDissector.attrs, ofUtf8_utf8, ofUtf8_utf8, ofUtf8_utf8]
  rfl

/-- The view of a whole request. -/
def request : Payload := Hex.ofVec (utf8 "GET / HTTP/1.1\r\n") (by decide)

theorem ranges_iff_request : RangesMatch (HTTPDissector.analyze ofUtf8
      (streamLayer ⟨"GET", "/", "HTTP/1.1"⟩ request)) ⟨"GET", "/", "HTTP/1.1"⟩ ↔
    ∃ line : RequestLine,
      line.IsFirst (ofUtf8 (request.vec.take request.length)).toList ∧ IsAscii line.path ∧
        ∃ x y rest, request.bytes =
          utf8 line.method ++ x :: (utf8 line.path ++ y :: (utf8 line.version ++ rest)) :=
  ranges_iff ofUtf8_utf8 (streamLayer_mem (s := "GET / HTTP/1.1\r\n") rfl (by decide))

/-- A request with a character in front of it. -/
def shifted : Payload := Hex.ofVec (utf8 " GET / HTTP/1.1\r\n") (by decide)

/-- A request for a path with a character of two bytes. -/
def accented : Payload := Hex.ofVec (utf8 "GET /é HTTP/1.1\r\n") (by decide)

/-- A view of the bytes behind a request. -/
def behind : Payload :=
  ⟨utf8 "GET / HTTP/1.1\r\nhost: localhost\r\n", 16, 33, by decide, by decide, by decide⟩

/-- The line is not at the beginning, the path has more bytes than code units, the text is not the
one of the view. -/
theorem ranges_differ :
    (streamLayer ⟨"GET", "/", "HTTP/1.1"⟩ shifted ∈
        HTTPStreamDissector.analyze ofUtf8 streamParent shifted ∧
      ¬ RangesMatch (HTTPDissector.analyze ofUtf8
        (streamLayer ⟨"GET", "/", "HTTP/1.1"⟩ shifted)) ⟨"GET", "/", "HTTP/1.1"⟩) ∧
    (streamLayer ⟨"GET", "/é", "HTTP/1.1"⟩ accented ∈
        HTTPStreamDissector.analyze ofUtf8 streamParent accented ∧
      ¬ RangesMatch (HTTPDissector.analyze ofUtf8
        (streamLayer ⟨"GET", "/é", "HTTP/1.1"⟩ accented)) ⟨"GET", "/é", "HTTP/1.1"⟩) ∧
    (streamLayer ⟨"GET", "/", "HTTP/1.1"⟩ behind ∈
        HTTPStreamDissector.analyze ofUtf8 streamParent behind ∧
      ¬ RangesMatch (HTTPDissector.analyze ofUtf8
        (streamLayer ⟨"GET", "/", "HTTP/1.1"⟩ behind)) ⟨"GET", "/", "HTTP/1.1"⟩) := by
  simp only [analyze_streamLayer, rangesMatch_fields]
  refine ⟨⟨?_, ?_⟩, ⟨?_, ?_⟩, ⟨?_, ?_⟩⟩
  · exact streamLayer_mem (s := " GET / HTTP/1.1\r\n") rfl (by decide)
  · decide
  · exact streamLayer_mem (s := "GET /é HTTP/1.1\r\n") rfl (by decide)
  · decide
  · exact streamLayer_mem (s := "GET / HTTP/1.1\r\nh") (by decide) (by decide)
  · decide

end Dripcap
