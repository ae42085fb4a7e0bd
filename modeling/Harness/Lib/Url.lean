/-
# Harness.Lib.Url — URLs whose scheme is not special, and their query.

The URL standard's parser, for the schemes it has no rules about: the host is opaque, it is neither lower-cased
nor resolved, and only an address in brackets is read as one. How such an address is read and written again is a
parameter, `ipv6`; the brackets stay around it.

`parseQuery` is the reading of a query as a form. Whatever way its names and values are percent-encoded, they
are read back (`parseQuery_queryText`), and a URL that is put together of a host, a port and such a query is
taken apart again (`parseUrl_text`).
-/
import Harness.Lib.Utf8
import Mathlib.Data.List.DropRight
import Mathlib.Data.List.Forall2

namespace Harness.Lib

/-! ## Percent-encoding -/

/-- The value of a hexadecimal digit. -/
def hexValue (c : Char) : Option Nat :=
  if 48 ≤ c.toNat ∧ c.toNat ≤ 57 then some (c.toNat - 48)
  else if 97 ≤ c.toNat ∧ c.toNat ≤ 102 then some (c.toNat - 87)
  else if 65 ≤ c.toNat ∧ c.toNat ≤ 70 then some (c.toNat - 55)
  else none

def hexChar (n : Nat) : Char := n.digitChar.toUpper

def percentEncodeByte (b : UInt8) : List Char := ['%', hexChar (b.toNat / 16), hexChar (b.toNat % 16)]

/-- The characters of `set` are percent-encoded, the others stay. -/
def percentEncode (set : Char → Bool) (cs : List Char) : List Char :=
  cs.flatMap fun c => if set c then (utf8EncodeChar c).flatMap percentEncodeByte else [c]

/-- A `%` that no two digits follow stays. -/
def percentDecode : List Char → List UInt8
  | [] => []
  | '%' :: hi :: lo :: rest =>
      match hexValue hi, hexValue lo with
      | some h, some l => (16 * h + l).toUInt8 :: percentDecode rest
      | _, _ => 0x25 :: percentDecode (hi :: lo :: rest)
  | c :: rest => utf8EncodeChar c ++ percentDecode rest

/-- A letter or a digit. -/
def isAlphanumeric (c : Char) : Bool :=
  let n := c.toNat
  48 ≤ n && n ≤ 57 || 65 ≤ n && n ≤ 90 || 97 ≤ n && n ≤ 122

/-- What `encodeURIComponent` leaves as it is. -/
def isUnreserved (c : Char) : Bool := isAlphanumeric c || "-_.!~*'()".toList.contains c

def encodeURIComponent (s : List Char) : List Char := percentEncode (fun c => !isUnreserved c) s

/-- **`PercentEncoded bytes text`** — `text` is a percent-encoding of the bytes: an unreserved character stands
for itself or is encoded like the others, with digits of either case. -/
inductive PercentEncoded : List UInt8 → List Char → Prop
  | nil : PercentEncoded [] []
  | plain {c : Char} {bytes : List UInt8} {text : List Char} :
      isUnreserved c = true → PercentEncoded bytes text → PercentEncoded (c.toNat.toUInt8 :: bytes) (c :: text)
  | escaped {b : UInt8} {hi lo : Char} {bytes : List UInt8} {text : List Char} :
      hexValue hi = some (b.toNat / 16) → hexValue lo = some (b.toNat % 16) → PercentEncoded bytes text →
      PercentEncoded (b :: bytes) ('%' :: hi :: lo :: text)

theorem hexValue_hexChar : ∀ n < 16, hexValue (hexChar n) = some n := by decide

/-- What holds of the ASCII characters is decided by running through them. -/
theorem forall_ascii {P : Char → Prop} (h : ∀ n < 128, P (Char.ofNat n)) {c : Char} (hc : c.toNat < 128) :
    P c := by
  rw [← Char.ofNat_toNat c]
  exact h c.toNat hc

theorem isUnreserved_lt {c : Char} (h : isUnreserved c = true) : c.toNat < 128 := by
  rw [isUnreserved, Bool.or_eq_true] at h
  rcases h with h | h
  · simp only [isAlphanumeric, Bool.or_eq_true, Bool.and_eq_true, decide_eq_true_eq] at h
    omega
  · have hall : ("-_.!~*'()".toList.all fun c => c.toNat < 128) = true := by decide
    exact of_decide_eq_true (List.all_eq_true.mp hall c (List.contains_iff_mem.mp h))

theorem isUnreserved_graphic {c : Char} (h : isUnreserved c = true) : 0x20 < c.toNat ∧ c.toNat < 0x7F :=
  forall_ascii (P := fun c => isUnreserved c = true → 0x20 < c.toNat ∧ c.toNat < 0x7F) (by decide)
    (isUnreserved_lt h) h

theorem isUnreserved_of_hexValue {c : Char} {v : Nat} (h : hexValue c = some v) : isUnreserved c = true := by
  have hlt : c.toNat < 128 := by
    unfold hexValue at h
    split_ifs at h
    all_goals omega
  exact forall_ascii (P := fun c => (hexValue c).isSome = true → isUnreserved c = true) (by decide) hlt
    (by rw [h]; rfl)

namespace PercentEncoded

variable {bytes bytes' : List UInt8} {text text' : List Char}

theorem chars (h : PercentEncoded bytes text) : ∀ c ∈ text, c = '%' ∨ isUnreserved c = true := by
  induction h with
  | nil => exact fun _ hc => (List.not_mem_nil hc).elim
  | plain hc _ ih => exact List.forall_mem_cons.mpr ⟨.inr hc, ih⟩
  | escaped hhi hlo _ ih =>
      exact List.forall_mem_cons.mpr ⟨.inl rfl, List.forall_mem_cons.mpr ⟨.inr (isUnreserved_of_hexValue hhi),
        List.forall_mem_cons.mpr ⟨.inr (isUnreserved_of_hexValue hlo), ih⟩⟩⟩

theorem decode (h : PercentEncoded bytes text) : percentDecode text = bytes := by
  induction h with
  | nil => rfl
  | @plain c bytes text hc _ ih =>
      have hgraphic := isUnreserved_graphic hc
      have hne : c ≠ '%' := by
        rintro rfl
        exact absurd hc (by decide)
      rw [percentDecode.eq_3 _ _ (fun _ _ _ h _ => hne h), ih, utf8EncodeChar, if_pos (by omega),
        List.singleton_append]
  | @escaped b hi lo bytes text hhi hlo _ ih =>
      have hb : 16 * (b.toNat / 16) + b.toNat % 16 = b.toNat := Nat.div_add_mod b.toNat 16
      simp only [percentDecode, hhi, hlo, hb, ih, UInt8.ofNat_toNat]

theorem append (h : PercentEncoded bytes text) (h' : PercentEncoded bytes' text') :
    PercentEncoded (bytes ++ bytes') (text ++ text') := by
  induction h with
  | nil => exact h'
  | plain hc _ ih => exact .plain hc ih
  | escaped hhi hlo _ ih => exact .escaped hhi hlo ih

/-- Every byte can be encoded. -/
theorem encodeBytes (bytes : List UInt8) : PercentEncoded bytes (bytes.flatMap percentEncodeByte) := by
  induction bytes with
  | nil => exact .nil
  | cons b bytes ih =>
      have hb : b.toNat < 256 := b.toNat_lt
      exact .escaped (hexValue_hexChar _ (by omega)) (hexValue_hexChar _ (by omega)) ih

/-- `encodeURIComponent` is one of the encodings. -/
theorem encodeURIComponent (s : List Char) : PercentEncoded (utf8Encode s) (encodeURIComponent s) := by
  induction s with
  | nil => exact .nil
  | cons c s ih =>
      refine append ?_ ih
      dsimp only
      split
      · exact encodeBytes _
      · rename_i hc
        have hc : isUnreserved c = true := by simpa using hc
        have hgraphic := isUnreserved_graphic hc
        rw [utf8EncodeChar, if_pos (by omega)]
        exact .plain hc .nil

end PercentEncoded

/-- Nothing is encoded where nothing is in the set. -/
theorem percentEncode_eq_self {set : Char → Bool} {cs : List Char} (h : ∀ c ∈ cs, set c = false) :
    percentEncode set cs = cs := by
  unfold percentEncode
  induction cs with
  | nil => rfl
  | cons c cs ih =>
      obtain ⟨hc, hcs⟩ := List.forall_mem_cons.mp h
      rw [List.flatMap_cons, hc, ih hcs]
      rfl

/-! ## Queries -/

/-- The name or the value of a field; a `+` is a space. -/
def formDecode (cs : List Char) : List Char :=
  utf8Decode (percentDecode (cs.map fun c => if c = '+' then ' ' else c))

/-- A field is cut at its first `=`. -/
def parseField (field : List Char) : List Char × List Char :=
  (formDecode (field.takeWhile (· ≠ '=')), formDecode ((field.dropWhile (· ≠ '=')).drop 1))

/-- The `application/x-www-form-urlencoded` parser. An empty piece is no field. -/
def parseQuery (query : List Char) : List (List Char × List Char) :=
  ((query.splitOn '&').filter (· ≠ [])).map parseField

/-- The first value with a name. -/
def firstValue (params : List (List Char × List Char)) (name : List Char) : Option (List Char) :=
  (params.find? fun param => param.1 = name).map (·.2)

/-- Among parameters of different names each is found. -/
theorem firstValue_eq {params : List (List Char × List Char)} {name value : List Char}
    (hnames : (params.map Prod.fst).Nodup) (h : (name, value) ∈ params) : firstValue params name = some value := by
  obtain ⟨before, after, rfl⟩ := List.append_of_mem h
  rw [List.map_append, List.map_cons] at hnames
  have hbefore : before.find? (fun param => decide (param.1 = name)) = none := by
    refine List.find?_eq_none.mpr fun param hparam heq => ?_
    exact (List.nodup_append.mp hnames).2.2 _ (List.mem_map_of_mem hparam) _ List.mem_cons_self
      (of_decide_eq_true heq)
  rw [firstValue, List.find?_append, hbefore, Option.none_or, List.find?_cons, decide_eq_true rfl]
  rfl

/-- **`FieldText param field`** — `field` is a name and a value, percent-encoded in one way or another. -/
def FieldText (param : List Char × List Char) (field : List Char) : Prop :=
  ∃ name value, PercentEncoded (utf8Encode param.1) name ∧ PercentEncoded (utf8Encode param.2) value ∧
    field = name ++ '=' :: value

/-- **`QueryText params query`** — `query` is a field for each parameter, with a `&` between them. -/
def QueryText (params : List (List Char × List Char)) (query : List Char) : Prop :=
  ∃ texts : List ((List Char × List Char) × List Char), (∀ text ∈ texts, FieldText text.1 text.2) ∧
    params = texts.map Prod.fst ∧ query = ['&'].intercalate (texts.map Prod.snd)

def encodeField (param : List Char × List Char) : List Char :=
  encodeURIComponent param.1 ++ '=' :: encodeURIComponent param.2

def encodeQuery (params : List (List Char × List Char)) : List Char :=
  ['&'].intercalate (params.map encodeField)

/-- What a character of an encoded text is not. -/
theorem PercentEncoded.not_mem {bytes : List UInt8} {text : List Char} (h : PercentEncoded bytes text) {c : Char}
    (hc : isUnreserved c = false) (hne : c ≠ '%') : c ∉ text := by
  intro hmem
  rcases h.chars c hmem with rfl | hplain
  · exact hne rfl
  · rw [hc] at hplain
    cases hplain

theorem formDecode_encoded {s text : List Char} (h : PercentEncoded (utf8Encode s) text) :
    formDecode text = s := by
  have hplus : text.map (fun c => if c = '+' then ' ' else c) = text := by
    refine (List.map_congr_left fun c hc => if_neg ?_).trans (List.map_id text)
    rintro rfl
    exact h.not_mem (by decide) (by decide) hc
  rw [formDecode, hplus, h.decode, utf8Decode_encode]

namespace FieldText

variable {param : List Char × List Char} {field : List Char}

theorem parse (h : FieldText param field) : parseField field = param := by
  obtain ⟨name, value, hname, hvalue, rfl⟩ := h
  have hcut : ∀ c ∈ name, decide (c ≠ '=') = true := by
    intro c hc
    refine decide_eq_true ?_
    rintro rfl
    exact hname.not_mem (by decide) (by decide) hc
  rw [parseField, List.takeWhile_append_of_pos hcut, List.dropWhile_append_of_pos hcut]
  show (formDecode (name ++ []), formDecode value) = param
  rw [List.append_nil, formDecode_encoded hname, formDecode_encoded hvalue]

theorem ne_nil (h : FieldText param field) : field ≠ [] := by
  obtain ⟨name, value, -, -, rfl⟩ := h
  exact List.append_ne_nil_of_right_ne_nil _ (List.cons_ne_nil _ _)

theorem chars (h : FieldText param field) : ∀ c ∈ field, c = '%' ∨ c = '=' ∨ isUnreserved c = true := by
  obtain ⟨name, value, hname, hvalue, rfl⟩ := h
  intro c hc
  rcases List.mem_append.mp hc with hc | hc
  · exact (hname.chars c hc).imp_right .inr
  · rcases List.mem_cons.mp hc with rfl | hc
    · exact .inr (.inl rfl)
    · exact (hvalue.chars c hc).imp_right .inr

end FieldText

theorem mem_of_mem_intercalate {T : Type*} {sep : List T} {xss : List (List T)} {x : T}
    (h : x ∈ sep.intercalate xss) : x ∈ sep ∨ ∃ xs ∈ xss, x ∈ xs := by
  induction xss with
  | nil => cases h
  | cons xs xss ih =>
      rcases eq_or_ne xss [] with rfl | hne
      · rw [List.intercalate_singleton] at h
        exact .inr ⟨xs, List.mem_cons_self, h⟩
      · rw [List.intercalate_cons_of_ne_nil hne, List.append_assoc, List.mem_append, List.mem_append] at h
        rcases h with h | h | h
        · exact .inr ⟨xs, List.mem_cons_self, h⟩
        · exact .inl h
        · exact (ih h).imp_right fun ⟨ys, hys, hx⟩ => ⟨ys, List.mem_cons_of_mem _ hys, hx⟩

namespace QueryText

variable {params : List (List Char × List Char)} {query : List Char}

theorem chars (h : QueryText params query) :
    ∀ c ∈ query, c = '%' ∨ c = '=' ∨ c = '&' ∨ isUnreserved c = true := by
  obtain ⟨texts, htexts, rfl, rfl⟩ := h
  intro c hc
  rcases mem_of_mem_intercalate hc with hc | ⟨field, hfield, hc⟩
  · exact .inr (.inr (.inl (List.mem_singleton.mp hc)))
  · obtain ⟨text, htext, rfl⟩ := List.mem_map.mp hfield
    rcases (htexts text htext).chars c hc with h | h | h
    · exact .inl h
    · exact .inr (.inl h)
    · exact .inr (.inr (.inr h))

/-- **The parameters of a query are read back**, however they were encoded. -/
theorem parse (h : QueryText params query) : parseQuery query = params := by
  obtain ⟨texts, htexts, rfl, rfl⟩ := h
  have hamp : ∀ field ∈ texts.map Prod.snd, '&' ∉ field := by
    intro field hfield hc
    obtain ⟨text, htext, rfl⟩ := List.mem_map.mp hfield
    rcases (htexts text htext).chars '&' hc with h | h | h
    all_goals exact absurd h (by decide)
  have hfields : (texts.map Prod.snd).filter (· ≠ []) = texts.map Prod.snd := by
    refine List.filter_eq_self.mpr fun field hfield => ?_
    obtain ⟨text, htext, rfl⟩ := List.mem_map.mp hfield
    exact decide_eq_true (htexts text htext).ne_nil
  rcases eq_or_ne texts [] with rfl | hne
  · rfl
  · rw [parseQuery, List.splitOn_intercalate _ hamp (by simpa using hne), hfields, List.map_map]
    exact List.map_congr_left fun text htext => (htexts text htext).parse

/-- `encodeURIComponent` on every name and value. -/
theorem encode (params : List (List Char × List Char)) : QueryText params (encodeQuery params) := by
  refine ⟨params.map fun param => (param, encodeField param), ?_, ?_, ?_⟩
  · intro text htext
    obtain ⟨param, -, rfl⟩ := List.mem_map.mp htext
    exact ⟨_, _, .encodeURIComponent param.1, .encodeURIComponent param.2, rfl⟩
  · rw [List.map_map]
    exact (List.map_id params).symm
  · rw [List.map_map]
    rfl

end QueryText

/-! ## URLs -/

/-- What is asked of a URL. A missing query is an empty one. -/
structure Url where
  hostname : List Char
  port : Option Nat
  query : List Char

/-- A tab or a line end. -/
def isLineBreak (c : Char) : Bool := c = '\t' ∨ c = '\n' ∨ c = '\x0d'

def endsAuthority (c : Char) : Bool := c = '/' || c = '?' || c = '#'

/-- The control characters and whatever is not ASCII. -/
def c0Control (c : Char) : Bool := c.toNat < 0x20 || 0x7E < c.toNat

def queryReserved (c : Char) : Bool := c0Control c || [' ', '"', '#', '<', '>'].contains c

def forbiddenHost (c : Char) : Bool :=
  ['\x00', '\t', '\n', '\x0d', ' ', '#', '/', ':', '<', '>', '?', '@', '[', '\\', ']', '^', '|'].contains c

/-- A host and, behind the first `:` outside brackets, a port. -/
def splitPort (bracketed : Bool) : List Char → List Char × Option (List Char)
  | [] => ([], none)
  | c :: cs =>
      if c = ':' ∧ bracketed = false then ([], some cs)
      else
        let rest := splitPort (if c = '[' then true else if c = ']' then false else bracketed) cs
        (c :: rest.1, rest.2)

section Parser

variable (ipv6 : List Char → Option (List Char))

/-- An address in brackets, or an opaque host. -/
def parseHost (host : List Char) : Option (List Char) :=
  if host.head? = some '[' then
    if host.getLast? = some ']' then (ipv6 host.tail.dropLast).map fun address => '[' :: address ++ [']']
    else none
  else if host.any forbiddenHost then none
  else some (percentEncode c0Control host)

/-- No digits are no port. -/
def parsePort (digits : List Char) : Option (Option Nat) :=
  if digits = [] then some none
  else if digits.all Char.isDigit && Nat.ofDigitChars 10 digits 0 ≤ 65535 then
    some (some (Nat.ofDigitChars 10 digits 0))
  else none

/-- A URL, from what stands behind the `://`. White space at its end and tabs and line ends are dropped, so
is everything up to the last `@`. -/
def parseUrl (text : List Char) : Option Url :=
  let text := (text.rdropWhile fun c => c.toNat ≤ 0x20).filter fun c => !isLineBreak c
  let authority := text.takeWhile fun c => !endsAuthority c
  let rest := (text.dropWhile fun c => !endsAuthority c).dropWhile fun c => c ≠ '?' && c ≠ '#'
  let (host, port) := splitPort false (authority.rtakeWhile fun c => c ≠ '@')
  if host = [] ∧ (port ≠ none ∨ '@' ∈ authority) then none
  else do
    let hostname ← parseHost ipv6 host
    let port ← parsePort (port.getD [])
    let query := if rest.head? = some '?' then rest.tail.takeWhile fun c => c ≠ '#' else []
    return ⟨hostname, port, percentEncode queryReserved query⟩

/-! ## A URL that was put together is taken apart -/

section TakenApart

variable {host digits query : List Char}

/-- A host without brackets ends before its port. -/
theorem splitPort_plain (hhost : ∀ c ∈ host, c ≠ ':' ∧ c ≠ '[' ∧ c ≠ ']') :
    splitPort false (host ++ ':' :: digits) = (host, some digits) := by
  induction host with
  | nil => rfl
  | cons c host ih =>
      obtain ⟨⟨hcolon, hopen, hclose⟩, hhost⟩ := List.forall_mem_cons.mp hhost
      rw [List.cons_append, splitPort, if_neg (fun h => hcolon h.1), if_neg hopen, if_neg hclose, ih hhost]

/-- The colons of an address in brackets are no ends. -/
theorem splitPort_bracketed {address : List Char} (haddress : ∀ c ∈ address, c ≠ ']') :
    splitPort false ('[' :: address ++ [']'] ++ ':' :: digits) = ('[' :: address ++ [']'], some digits) := by
  -- between the brackets no `:` is an end, so this part is an induction of its own
  have hinside : splitPort true (address ++ ']' :: ':' :: digits) = (address ++ [']'], some digits) := by
    induction address with
    | nil => rfl
    | cons c address ih =>
        obtain ⟨hclose, haddress⟩ := List.forall_mem_cons.mp haddress
        rw [List.cons_append, splitPort, if_neg (fun h => absurd h.2 (by decide)), if_neg hclose, ite_self,
          ih haddress]
        rfl
  rw [List.append_assoc, List.cons_append, List.singleton_append, splitPort,
    if_neg (fun h => absurd h.1 (by decide)), if_pos rfl, hinside]
  rfl

/-- An unreserved character can stand in a host. -/
theorem isUnreserved_host {c : Char} (h : isUnreserved c = true) :
    endsAuthority c = false ∧ forbiddenHost c = false ∧ c0Control c = false :=
  forall_ascii (P := fun c => isUnreserved c = true →
    endsAuthority c = false ∧ forbiddenHost c = false ∧ c0Control c = false) (by decide) (isUnreserved_lt h) h

/-- The query of a form needs no encoding. -/
theorem QueryText.plain {params : List (List Char × List Char)} (h : QueryText params query) :
    ∀ c ∈ query, queryReserved c = false := by
  intro c hc
  rcases h.chars c hc with rfl | rfl | rfl | hplain
  · rfl
  · rfl
  · rfl
  · exact forall_ascii (P := fun c => isUnreserved c = true → queryReserved c = false) (by decide)
      (isUnreserved_lt hplain) hplain

/-- A host that needs no encoding is its own name. -/
theorem parseHost_plain (hhost : ∀ c ∈ host, forbiddenHost c = false ∧ c0Control c = false) :
    parseHost ipv6 host = some host := by
  have hopen : host.head? ≠ some '[' := by
    intro h
    exact absurd (hhost '[' (List.mem_of_mem_head? h)).1 (by decide)
  have hallowed : ¬ host.any forbiddenHost = true := by
    rw [List.any_eq_true]
    rintro ⟨c, hc, hforbidden⟩
    rw [(hhost c hc).1] at hforbidden
    cases hforbidden
  rw [parseHost, if_neg hopen, if_neg hallowed, percentEncode_eq_self fun c hc => (hhost c hc).2]

/-- **The brackets stay.** -/
theorem parseHost_bracketed {address read : List Char} (h : ipv6 address = some read) :
    parseHost ipv6 ('[' :: address ++ [']']) = some ('[' :: read ++ [']']) := by
  have hopen : ('[' :: address ++ [']']).head? = some '[' := rfl
  have hclose : ('[' :: address ++ [']']).getLast? = some ']' := List.getLast?_concat ..
  have hinner : ('[' :: address ++ [']']).tail.dropLast = address := List.dropLast_concat ..
  rw [parseHost, if_pos hopen, if_pos hclose, hinner, h]
  rfl

theorem parsePort_toDigits {n : Nat} (h : n ≤ 65535) : parsePort (Nat.toDigits 10 n) = some (some n) := by
  have hdigits : (Nat.toDigits 10 n).all Char.isDigit = true :=
    List.all_eq_true.mpr fun c hc => Nat.isDigit_of_mem_toDigits (by decide) (by decide) hc
  rw [parsePort, if_neg Nat.toDigits_ne_nil, Nat.ofDigitChars_ten_toDigits, hdigits, if_pos]
  simpa using h

theorem digit_inside {c : Char} (h : c.isDigit = true) :
    0x20 < c.toNat ∧ endsAuthority c = false ∧ c ≠ '@' :=
  have hlt : c.toNat < 128 := Nat.lt_of_le_of_lt (Char.isDigit_iff_toNat.mp h).2 (by decide)
  forall_ascii (P := fun c => c.isDigit = true → 0x20 < c.toNat ∧ endsAuthority c = false ∧ c ≠ '@') (by decide)
    hlt h

theorem queryReserved_inside {c : Char} (h : queryReserved c = false) : 0x20 < c.toNat ∧ c ≠ '#' := by
  have hc0 : c0Control c = false := (Bool.or_eq_false_iff.mp h).1
  have hlt : c.toNat < 128 := by
    have := of_decide_eq_false (Bool.or_eq_false_iff.mp hc0).2
    omega
  exact forall_ascii (P := fun c => queryReserved c = false → 0x20 < c.toNat ∧ c ≠ '#') (by decide) hlt h

/-- There is nothing to drop among graphic characters. -/
theorem strip_graphic {text : List Char} (h : ∀ c ∈ text, 0x20 < c.toNat) :
    (text.rdropWhile fun c => c.toNat ≤ 0x20).filter (fun c => !isLineBreak c) = text := by
  have hend : text.rdropWhile (fun c => decide (c.toNat ≤ 0x20)) = text :=
    List.rdropWhile_eq_self_iff.mpr fun hne hlast =>
      absurd (of_decide_eq_true hlast) (Nat.not_le.mpr (h _ (List.getLast_mem hne)))
  rw [hend]
  refine List.filter_eq_self.mpr fun c hc => ?_
  have hgraphic := h c hc
  have hbreak : isLineBreak c = false := by
    refine decide_eq_false ?_
    rintro (rfl | rfl | rfl)
    all_goals exact absurd hgraphic (by decide)
  rw [hbreak]
  rfl

/-- **A URL that was put together of a host, a port and a query is taken apart again.** -/
theorem parseUrl_text (hne : host ≠ [])
    (hhost : ∀ c ∈ host, 0x20 < c.toNat ∧ endsAuthority c = false ∧ c ≠ '@')
    (hdigits : ∀ c ∈ digits, c.isDigit = true) (hquery : ∀ c ∈ query, queryReserved c = false)
    (hsplit : splitPort false (host ++ ':' :: digits) = (host, some digits)) {hostname : List Char}
    (hname : parseHost ipv6 host = some hostname) {port : Option Nat} (hport : parsePort digits = some port) :
    parseUrl ipv6 (host ++ ':' :: digits ++ '?' :: query) = some ⟨hostname, port, query⟩ := by
  have hauthority : ∀ c ∈ host ++ ':' :: digits, 0x20 < c.toNat ∧ endsAuthority c = false ∧ c ≠ '@' :=
    List.forall_mem_append.mpr
      ⟨hhost, List.forall_mem_cons.mpr ⟨by decide, fun c hc => digit_inside (hdigits c hc)⟩⟩
  have hrest : ∀ c ∈ query, 0x20 < c.toNat ∧ c ≠ '#' := fun c hc => queryReserved_inside (hquery c hc)
  have hgraphic : ∀ c ∈ host ++ ':' :: digits ++ '?' :: query, 0x20 < c.toNat :=
    List.forall_mem_append.mpr ⟨fun c hc => (hauthority c hc).1,
      List.forall_mem_cons.mpr ⟨by decide, fun c hc => (hrest c hc).1⟩⟩
  have hcut : ∀ c ∈ host ++ ':' :: digits, (!endsAuthority c) = true := by
    intro c hc
    rw [(hauthority c hc).2.1]
    rfl
  have huser : (host ++ ':' :: digits).rtakeWhile (fun c => decide (c ≠ '@')) = host ++ ':' :: digits :=
    List.rtakeWhile_eq_self_iff.mpr fun c hc => decide_eq_true (hauthority c hc).2.2
  have hkept : query.takeWhile (fun c => decide (c ≠ '#')) = query :=
    List.takeWhile_eq_self_iff.mpr fun c hc => decide_eq_true (hrest c hc).2
  unfold parseUrl
  dsimp only
  -- nothing is stripped, and the authority ends at the `?`
  rw [strip_graphic hgraphic, List.takeWhile_append_of_pos hcut, List.dropWhile_append_of_pos hcut]
  rw [List.takeWhile_cons_of_neg (by decide), List.dropWhile_cons_of_neg (by decide), List.append_nil, huser,
    hsplit]
  dsimp only
  rw [if_neg (fun h => hne h.1), List.dropWhile_cons_of_neg (by decide)]
  simp only [List.head?_cons, List.tail_cons, if_true, hkept, percentEncode_eq_self hquery, Option.getD_some,
    hname, hport]
  rfl

end TakenApart

end Parser

end Harness.Lib
