/-
# Harness.Wire.JsonText — JSON as it is written.

Everywhere else a message is the value it denotes. Here is the text: what `json.Marshal` and `JSON.stringify`
write, which differ in the characters they escape, and what a reader makes of a text. `parse_text` is what lets
the rest of the development speak of values: whichever of the two wrote a value, it is read as that value. And a
text has no line break in it (`text_graphic`), so texts can be sent line by line.

A number is written as its mantissa and, unless it is zero, its exponent. One that is read with a point or an
exponent is kept with an exponent that is not zero.
-/
import Harness.Lib.JsonLiteral
import Harness.Wire.Json

namespace Harness.Wire

open Lib

/-! ## Writing -/

/-- The characters `json.Marshal` escapes besides the ones it must: its output may be put into HTML, and into a
script. -/
def htmlUnsafe (c : Char) : Bool := c == '<' || c == '>' || c == '&' || c == '\u2028' || c == '\u2029'

/-- A character of a string, as `json.Marshal` writes it. -/
def goEscape : Char → List Char := escapeChar htmlUnsafe

/-- A character of a string, as `JSON.stringify` writes it. -/
def jsEscape : Char → List Char := escapeChar fun _ => false

namespace Json

def quoted (esc : Char → List Char) (s : String) : List Char := '"' :: (s.toList.flatMap esc ++ ['"'])

mutual

/-- The text of a value, without a space anywhere. -/
def text (esc : Char → List Char) : Json → List Char
  | .null => ['n', 'u', 'l', 'l']
  | .bool true => ['t', 'r', 'u', 'e']
  | .bool false => ['f', 'a', 'l', 's', 'e']
  | .num n => numberLiteral n.mantissa n.exponent
  | .str s => quoted esc s
  | .arr xs => '[' :: (elements esc xs ++ [']'])
  | .obj members => '\x7b' :: (membersText esc members ++ ['\x7d'])

def elements (esc : Char → List Char) : List Json → List Char
  | [] => []
  | x :: xs => text esc x ++ moreElements esc xs

def moreElements (esc : Char → List Char) : List Json → List Char
  | [] => []
  | x :: xs => ',' :: (text esc x ++ moreElements esc xs)

def membersText (esc : Char → List Char) : List (String × Json) → List Char
  | [] => []
  | (k, v) :: ms => quoted esc k ++ ':' :: (text esc v ++ moreMembers esc ms)

def moreMembers (esc : Char → List Char) : List (String × Json) → List Char
  | [] => []
  | (k, v) :: ms => ',' :: (quoted esc k ++ ':' :: (text esc v ++ moreMembers esc ms))

end

/-! ## Reading -/

/-- Insignificant white space. -/
def isSpace (c : Char) : Bool := c == ' ' || c == '\t' || c == '\n' || c == '\r'

def skipSpace (cs : List Char) : List Char := cs.dropWhile isSpace

/-- A string, with its quotes. -/
def readString : List Char → Option (String × List Char)
  | '"' :: cs => (readChars none cs).map fun r => (String.ofList r.1, r.2)
  | _ => none

/-- One of the three words. -/
def readWord (word : List Char) (v : Json) (cs : List Char) : Option (Json × List Char) :=
  if word <+: cs then some (v, cs.drop word.length) else none

/-- What follows the character `c`, which comes next. -/
def readChar (c : Char) (cs : List Char) : Option (List Char) :=
  if (skipSpace cs).head? = some c then some (skipSpace cs).tail else none

/-- A member's name and its colon. -/
def readName (cs : List Char) : Option (String × List Char) :=
  match readString (skipSpace cs) with
  | none => none
  | some (k, cs) => (readChar ':' cs).map fun cs => (k, cs)

mutual

/-- A value and what follows it. No value is nested deeper than `fuel`, and no list is longer. -/
def readValue : Nat → List Char → Option (Json × List Char)
  | 0, _ => none
  | fuel + 1, cs =>
      match skipSpace cs with
      | [] => none
      | c :: cs =>
          if c = '"' then (readString (c :: cs)).map fun r => (.str r.1, r.2)
          else if c = '[' then
            match readChar ']' cs with
            | some cs => some (.arr [], cs)
            | none => (readElements fuel cs).map fun r => (.arr r.1, r.2)
          else if c = '\x7b' then
            match readChar '\x7d' cs with
            | some cs => some (.obj [], cs)
            | none => (readMembers fuel cs).map fun r => (.obj r.1, r.2)
          else if c = 'n' then readWord ['u', 'l', 'l'] .null cs
          else if c = 't' then readWord ['r', 'u', 'e'] (.bool true) cs
          else if c = 'f' then readWord ['a', 'l', 's', 'e'] (.bool false) cs
          else (readNumber (c :: cs)).map fun r => (.num ⟨r.1.1, r.1.2⟩, r.2)

/-- The values of an array behind its bracket, up to the closing one. -/
def readElements : Nat → List Char → Option (List Json × List Char)
  | 0, _ => none
  | fuel + 1, cs =>
      match readValue fuel cs with
      | none => none
      | some (x, cs) =>
          match readChar ']' cs with
          | some cs => some ([x], cs)
          | none =>
              match readChar ',' cs with
              | some cs => (readElements fuel cs).map fun r => (x :: r.1, r.2)
              | none => none

/-- The members of an object behind its brace, up to the closing one. -/
def readMembers : Nat → List Char → Option (List (String × Json) × List Char)
  | 0, _ => none
  | fuel + 1, cs =>
      match readName cs with
      | none => none
      | some (k, cs) =>
          match readValue fuel cs with
          | none => none
          | some (v, cs) =>
              match readChar '\x7d' cs with
              | some cs => some ([(k, v)], cs)
              | none =>
                  match readChar ',' cs with
                  | some cs => (readMembers fuel cs).map fun r => ((k, v) :: r.1, r.2)
                  | none => none

end

/-- A text is one value, with white space around it. -/
def parse (cs : List Char) : Option Json :=
  match readValue (cs.length + 1) cs with
  | some (v, rest) => if skipSpace rest = [] then some v else none
  | none => none

-- White space, an escape of two code units, and a number with a fraction.
example : ((parse " \x7b\"a\" : [1, -2.50e1, \"\\ud83d\\ude00\\n\"]\x7d\n".toList).map fun v =>
    String.ofList (v.text goEscape)) = some "\x7b\"a\":[1,-250e-1,\"😀\\n\"]\x7d" := by decide +kernel

-- The exponent is not lost, although the number is one.
example : ((parse "1e0".toList).map fun v => String.ofList (v.text goEscape)) = some "10e-1" := by decide +kernel

/-! ## What is written is read -/

mutual

/-- The fuel a value needs. -/
def weight : Json → Nat
  | .arr xs => 1 + listWeight xs
  | .obj members => 1 + membersWeight members
  | _ => 1

def listWeight : List Json → Nat
  | [] => 0
  | x :: xs => 1 + weight x + listWeight xs

def membersWeight : List (String × Json) → Nat
  | [] => 0
  | (_, v) :: ms => 1 + weight v + membersWeight ms

end

theorem skipSpace_cons {c : Char} {cs : List Char} (h : isSpace c = false) : skipSpace (c :: cs) = c :: cs := by
  rw [skipSpace, List.dropWhile_cons, h]
  rfl

theorem readChar_self {c : Char} (cs : List Char) (h : isSpace c = false) : readChar c (c :: cs) = some cs := by
  rw [readChar, skipSpace_cons h]
  exact if_pos rfl

theorem readChar_other {c d : Char} (cs : List Char) (h : isSpace d = false) (hne : d ≠ c) :
    readChar c (d :: cs) = none := by
  rw [readChar, skipSpace_cons h]
  exact if_neg fun he => hne (Option.some.inj he)

theorem endsNumber_cons {c : Char} {cs : List Char} (h : c = ',' ∨ c = ']' ∨ c = '\x7d') :
    EndsNumber (c :: cs) := by
  intro d hd
  obtain rfl : c = d := Option.some.inj hd
  rcases h with rfl | rfl | rfl <;> decide

/-- The first character of a number, which opens nothing else. -/
theorem number_opens {c : Char} (h : c = '-' ∨ c.isDigit = true) :
    isSpace c = false ∧ c ≠ '"' ∧ c ≠ '[' ∧ c ≠ '\x7b' ∧ c ≠ 'n' ∧ c ≠ 't' ∧ c ≠ 'f' ∧ c ≠ ']' ∧ c ≠ '\x7d' := by
  rcases h with rfl | h
  · decide
  · have hdigit := Char.isDigit_iff_toNat.mp h
    have hlt : c.toNat < 128 := Nat.lt_of_le_of_lt hdigit.2 (by decide)
    exact forall_ascii (P := fun c => c.isDigit = true → isSpace c = false ∧ c ≠ '"' ∧ c ≠ '[' ∧ c ≠ '\x7b' ∧
      c ≠ 'n' ∧ c ≠ 't' ∧ c ≠ 'f' ∧ c ≠ ']' ∧ c ≠ '\x7d') (by decide) hlt h

/-- A text begins with its value, which closes nothing. -/
theorem text_head (esc : Char → List Char) (v : Json) :
    ∃ c cs, text esc v = c :: cs ∧ isSpace c = false ∧ c ≠ ']' ∧ c ≠ '\x7d' := by
  cases v with
  | null => exact ⟨_, _, rfl, by decide⟩
  | bool b => cases b <;> exact ⟨_, _, rfl, by decide⟩
  | num n =>
    obtain ⟨c, cs, heq, hc⟩ := numberLiteral_head n.mantissa n.exponent
    obtain ⟨hspace, -, -, -, -, -, -, hbracket, hbrace⟩ := number_opens hc
    exact ⟨c, cs, heq, hspace, hbracket, hbrace⟩
  | str s => exact ⟨'"', _, rfl, by decide⟩
  | arr xs => exact ⟨'[', _, rfl, by decide⟩
  | obj ms => exact ⟨'\x7b', _, rfl, by decide⟩

section

variable {esc : Char → List Char}

theorem readString_quoted (hesc : ∀ c, Spells c (esc c)) (s : String) (rest : List Char) :
    readString (quoted esc s ++ rest) = some (s, rest) := by
  rw [quoted, List.cons_append, List.append_assoc, List.singleton_append, readString, readChars_flatMap hesc,
    Option.map_some, String.ofList_toList]

theorem readName_quoted (hesc : ∀ c, Spells c (esc c)) (k : String) (rest : List Char) :
    readName (quoted esc k ++ ':' :: rest) = some (k, rest) := by
  have hskip : skipSpace (quoted esc k ++ ':' :: rest) = quoted esc k ++ ':' :: rest := skipSpace_cons (by decide)
  rw [readName, hskip, readString_quoted hesc]
  show (readChar ':' (':' :: rest)).map _ = _
  rw [readChar_self rest (by decide)]
  rfl

theorem endsNumber_moreElements (xs : List Json) (rest : List Char) :
    EndsNumber (moreElements esc xs ++ ']' :: rest) := by
  cases xs with
  | nil => exact endsNumber_cons (.inr (.inl rfl))
  | cons x xs => exact endsNumber_cons (.inl rfl)

theorem endsNumber_moreMembers (ms : List (String × Json)) (rest : List Char) :
    EndsNumber (moreMembers esc ms ++ '\x7d' :: rest) := by
  cases ms with
  | nil => exact endsNumber_cons (.inr (.inr rfl))
  | cons m ms => exact endsNumber_cons (.inl rfl)

theorem readValue_bracket (fuel : Nat) (cs : List Char) :
    readValue (fuel + 1) ('[' :: cs) =
      match readChar ']' cs with
      | some cs => some (.arr [], cs)
      | none => (readElements fuel cs).map fun r => (.arr r.1, r.2) := by
  rw [readValue, skipSpace_cons (by decide)]
  rfl

theorem readValue_brace (fuel : Nat) (cs : List Char) :
    readValue (fuel + 1) ('\x7b' :: cs) =
      match readChar '\x7d' cs with
      | some cs => some (.obj [], cs)
      | none => (readMembers fuel cs).map fun r => (.obj r.1, r.2) := by
  rw [readValue, skipSpace_cons (by decide)]
  rfl

theorem readWord_append (w : List Char) (v : Json) (rest : List Char) :
    readWord w v (w ++ rest) = some (v, rest) := by
  rw [readWord, if_pos (List.prefix_append _ _), List.drop_left]

/-- A value that is neither an array nor an object. -/
theorem readValue_leaf (hesc : ∀ c, Spells c (esc c)) {v : Json} {fuel : Nat} {rest : List Char}
    (hrest : EndsNumber rest) (harr : ∀ xs, v ≠ .arr xs) (hobj : ∀ ms, v ≠ .obj ms) :
    readValue (fuel + 1) (text esc v ++ rest) = some (v, rest) := by
  cases v with
  | null =>
    rw [readValue, text, List.cons_append, skipSpace_cons (by decide)]
    exact readWord_append ['u', 'l', 'l'] .null rest
  | bool b =>
    cases b with
    | true =>
      rw [readValue, text, List.cons_append, skipSpace_cons (by decide)]
      exact readWord_append ['r', 'u', 'e'] (.bool true) rest
    | false =>
      rw [readValue, text, List.cons_append, skipSpace_cons (by decide)]
      exact readWord_append ['a', 'l', 's', 'e'] (.bool false) rest
  | num n =>
    obtain ⟨c, cs, heq, hc⟩ := numberLiteral_head n.mantissa n.exponent
    obtain ⟨hspace, hquote, hbracket, hbrace, hn, ht, hf, -, -⟩ := number_opens hc
    have hread := readNumber_literal (m := n.mantissa) (e := n.exponent) hrest
    rw [heq, List.cons_append] at hread
    rw [readValue, text, heq, List.cons_append, skipSpace_cons hspace]
    simp only [if_neg hquote, if_neg hbracket, if_neg hbrace, if_neg hn, if_neg ht, if_neg hf, hread,
      Option.map_some]
  | str s =>
    have hskip : skipSpace (quoted esc s ++ rest) = quoted esc s ++ rest := skipSpace_cons (by decide)
    have hread := readString_quoted hesc s rest
    rw [readValue, text, hskip]
    rw [quoted, List.cons_append] at hread ⊢
    simp only [if_pos, hread, Option.map_some]
  | arr xs => exact absurd rfl (harr xs)
  | obj ms => exact absurd rfl (hobj ms)

/-- Nothing that begins with a value closes a list. -/
theorem readChar_text (v : Json) (rest : List Char) :
    readChar ']' (text esc v ++ rest) = none ∧ readChar '\x7d' (text esc v ++ rest) = none := by
  obtain ⟨c, cs, heq, hspace, hbracket, hbrace⟩ := text_head esc v
  rw [heq, List.cons_append]
  exact ⟨readChar_other _ hspace hbracket, readChar_other _ hspace hbrace⟩

theorem weight_pos (v : Json) : 0 < weight v := by
  cases v with
  | arr | obj =>
    rw [weight]
    omega
  | _ => exact Nat.one_pos

mutual

/-- **A value that was written is read**, and what follows it is left. -/
theorem readValue_text (hesc : ∀ c, Spells c (esc c)) : ∀ (v : Json) (fuel : Nat) (rest : List Char),
    weight v ≤ fuel → EndsNumber rest → readValue fuel (text esc v ++ rest) = some (v, rest)
  | v, 0, _, hfuel, _ => absurd (weight_pos v) (by omega)
  | .null, fuel + 1, rest, _, hrest => readValue_leaf hesc hrest (fun _ h => by cases h) fun _ h => by cases h
  | .bool b, fuel + 1, rest, _, hrest => readValue_leaf hesc hrest (fun _ h => by cases h) fun _ h => by cases h
  | .num n, fuel + 1, rest, _, hrest => readValue_leaf hesc hrest (fun _ h => by cases h) fun _ h => by cases h
  | .str s, fuel + 1, rest, _, hrest => readValue_leaf hesc hrest (fun _ h => by cases h) fun _ h => by cases h
  | .arr [], fuel + 1, rest, _, _ => by
    rw [text, List.cons_append, readValue_bracket, elements, List.nil_append, List.singleton_append,
      readChar_self rest (by decide)]
  | .arr (x :: xs), fuel + 1, rest, hfuel, _ => by
    have hle : listWeight (x :: xs) ≤ fuel := by
      rw [weight] at hfuel
      omega
    have hread := readElements_text hesc x xs fuel rest hle
    rw [text, List.cons_append, readValue_bracket, elements, List.append_assoc, List.singleton_append,
      List.append_assoc, (readChar_text x _).1, ← List.append_assoc, hread]
    rfl
  | .obj [], fuel + 1, rest, _, _ => by
    rw [text, List.cons_append, readValue_brace, membersText, List.nil_append, List.singleton_append,
      readChar_self rest (by decide)]
  | .obj (m :: ms), fuel + 1, rest, hfuel, _ => by
    have hle : membersWeight (m :: ms) ≤ fuel := by
      rw [weight] at hfuel
      omega
    have hread := readMembers_text hesc m ms fuel rest hle
    have hopen : readChar '\x7d' (membersText esc (m :: ms) ++ '\x7d' :: rest) = none :=
      readChar_other _ (by decide) (by decide)
    rw [text, List.cons_append, readValue_brace, List.append_assoc, List.singleton_append, hopen, hread]
    rfl

theorem readElements_text (hesc : ∀ c, Spells c (esc c)) : ∀ (x : Json) (xs : List Json) (fuel : Nat)
    (rest : List Char), listWeight (x :: xs) ≤ fuel →
    readElements fuel (text esc x ++ moreElements esc xs ++ ']' :: rest) = some (x :: xs, rest)
  | x, xs, 0, rest, hfuel => by
    rw [listWeight] at hfuel
    omega
  | x, xs, fuel + 1, rest, hfuel => by
    rw [listWeight] at hfuel
    rw [List.append_assoc, readElements,
      readValue_text hesc x fuel _ (by omega) (endsNumber_moreElements xs rest)]
    match xs, hfuel with
    | [], _ =>
      dsimp only
      rw [moreElements, List.nil_append, readChar_self rest (by decide)]
    | y :: ys, hfuel =>
      have hread := readElements_text hesc y ys fuel rest (by omega)
      dsimp only
      rw [moreElements, List.cons_append, readChar_other _ (by decide) (by decide),
        readChar_self _ (by decide)]
      dsimp only
      rw [hread]
      rfl

theorem readMembers_text (hesc : ∀ c, Spells c (esc c)) : ∀ (m : String × Json) (ms : List (String × Json))
    (fuel : Nat) (rest : List Char), membersWeight (m :: ms) ≤ fuel →
    readMembers fuel (membersText esc (m :: ms) ++ '\x7d' :: rest) = some (m :: ms, rest)
  | (k, v), ms, 0, rest, hfuel => by
    rw [membersWeight] at hfuel
    omega
  | (k, v), ms, fuel + 1, rest, hfuel => by
    rw [membersWeight] at hfuel
    rw [membersText, List.append_assoc, List.cons_append, readMembers, readName_quoted hesc, List.append_assoc]
    dsimp only
    rw [readValue_text hesc v fuel _ (by omega) (endsNumber_moreMembers ms rest)]
    match ms, hfuel with
    | [], _ =>
      dsimp only
      rw [moreMembers, List.nil_append, readChar_self rest (by decide)]
    | (k', v') :: ms, hfuel =>
      have hread := readMembers_text hesc (k', v') ms fuel rest (by omega)
      dsimp only
      rw [moreMembers, List.cons_append, readChar_other _ (by decide) (by decide),
        readChar_self _ (by decide)]
      dsimp only
      rw [membersText] at hread
      rw [hread]
      rfl

end

mutual

/-- A text is long enough to be read with its length for fuel. -/
theorem weight_le_length (esc : Char → List Char) : ∀ v : Json, weight v ≤ (text esc v).length
  | .null | .bool true | .bool false => by simp [weight, text]
  | .num n => by
    obtain ⟨c, cs, heq, -⟩ := numberLiteral_head n.mantissa n.exponent
    show 1 ≤ (numberLiteral n.mantissa n.exponent).length
    rw [heq, List.length_cons]
    omega
  | .str s => by simp [weight, text, quoted]
  | .arr [] => by simp [weight, listWeight, text]
  | .arr (x :: xs) => by
    have hx := weight_le_length esc x
    have hxs := listWeight_le_length esc xs
    simp only [weight, listWeight, text, elements, List.length_cons, List.length_append, List.length_nil]
    omega
  | .obj [] => by simp [weight, membersWeight, text]
  | .obj ((k, v) :: ms) => by
    have hv := weight_le_length esc v
    have hms := membersWeight_le_length esc ms
    simp only [weight, membersWeight, text, membersText, List.length_cons, List.length_append, List.length_nil]
    omega

theorem listWeight_le_length (esc : Char → List Char) :
    ∀ xs : List Json, listWeight xs ≤ (moreElements esc xs).length
  | [] => Nat.le_refl 0
  | x :: xs => by
    have hx := weight_le_length esc x
    have hxs := listWeight_le_length esc xs
    simp only [listWeight, moreElements, List.length_cons, List.length_append]
    omega

theorem membersWeight_le_length (esc : Char → List Char) :
    ∀ ms : List (String × Json), membersWeight ms ≤ (moreMembers esc ms).length
  | [] => Nat.le_refl 0
  | (k, v) :: ms => by
    have hv := weight_le_length esc v
    have hms := membersWeight_le_length esc ms
    simp only [membersWeight, moreMembers, List.length_cons, List.length_append]
    omega

end

/-- A writer of JSON: it spells every character of a string, without a control character. -/
structure Writer (esc : Char → List Char) : Prop where
  spells : ∀ c, Spells c (esc c)
  graphic : ∀ c, ∀ x ∈ esc c, 0x20 ≤ x.toNat

theorem escapeChar_writer {also : Char → Bool} (h : ∀ c, also c = true → c.toNat < 0x10000) :
    Writer (escapeChar also) :=
  ⟨spells_escapeChar h, escapeChar_graphic h⟩

theorem jsEscape_writer : Writer jsEscape := escapeChar_writer fun _ h => absurd h Bool.false_ne_true

theorem goEscape_writer : Writer goEscape := by
  apply escapeChar_writer
  intro c h
  simp only [htmlUnsafe, Bool.or_eq_true, beq_iff_eq] at h
  rcases h with (((rfl | rfl) | rfl) | rfl) | rfl <;> decide

/-- **A value is read as it was written**, by whichever of the writers. -/
theorem parse_text (hesc : Writer esc) (v : Json) : parse (text esc v) = some v := by
  have hfuel : weight v ≤ (text esc v).length + 1 := Nat.le_succ_of_le (weight_le_length esc v)
  have hread := readValue_text hesc.spells v _ [] hfuel (by intro c hc; cases hc)
  rw [List.append_nil] at hread
  rw [parse, hread]
  rfl

theorem quoted_graphic (hesc : Writer esc) (s : String) : ∀ c ∈ quoted esc s, 0x20 ≤ c.toNat := by
  intro c hc
  rcases List.mem_cons.mp hc with rfl | hc
  · decide
  · rcases List.mem_append.mp hc with hc | hc
    · obtain ⟨d, -, hd⟩ := List.mem_flatMap.mp hc
      exact hesc.graphic d c hd
    · rw [List.mem_singleton.mp hc]
      decide

mutual

/-- A text has no control character in it, and so no line break. -/
theorem text_graphic (hesc : Writer esc) : ∀ v : Json, ∀ c ∈ text esc v, 0x20 ≤ c.toNat
  | .null | .bool true | .bool false => by
    simp only [text]
    exact graphic_of_all (by decide)
  | .num n => numberLiteral_graphic _ _
  | .str s => quoted_graphic hesc s
  | .arr [] => by
    simp only [text, elements]
    exact graphic_of_all (by decide)
  | .arr (x :: xs) => by
    simp only [text, elements, List.forall_mem_cons, List.forall_mem_append]
    exact ⟨by decide, ⟨text_graphic hesc x, moreElements_graphic hesc xs⟩, by decide, List.forall_mem_nil _⟩
  | .obj [] => by
    simp only [text, membersText]
    exact graphic_of_all (by decide)
  | .obj ((k, v) :: ms) => by
    simp only [text, membersText, List.forall_mem_cons, List.forall_mem_append]
    exact ⟨by decide, ⟨quoted_graphic hesc k, by decide, text_graphic hesc v, moreMembers_graphic hesc ms⟩,
      by decide, List.forall_mem_nil _⟩

theorem moreElements_graphic (hesc : Writer esc) : ∀ xs : List Json, ∀ c ∈ moreElements esc xs, 0x20 ≤ c.toNat
  | [] => List.forall_mem_nil _
  | x :: xs => by
    simp only [moreElements, List.forall_mem_cons, List.forall_mem_append]
    exact ⟨by decide, text_graphic hesc x, moreElements_graphic hesc xs⟩

theorem moreMembers_graphic (hesc : Writer esc) :
    ∀ ms : List (String × Json), ∀ c ∈ moreMembers esc ms, 0x20 ≤ c.toNat
  | [] => List.forall_mem_nil _
  | (k, v) :: ms => by
    simp only [moreMembers, List.forall_mem_cons, List.forall_mem_append]
    exact ⟨by decide, quoted_graphic hesc k, by decide, text_graphic hesc v, moreMembers_graphic hesc ms⟩

end

end

end Json

end Harness.Wire
