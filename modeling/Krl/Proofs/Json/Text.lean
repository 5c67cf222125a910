import Krl.Json.Printer
import Krl.Proofs.Json.Parts
import Krl.Text.Digit

/-!
# Texts of a JSON value

The grammar of JSON, as a relation between values and the texts that may be written for them: blanks
stand around each item and each name, every character of a string may be escaped in several ways,
and a numeral has its digits, its point and its exponent as they are written.

* `isText_write`: what the printer writes is a text of the value, in every style that puts nothing
  but blanks between tokens.
-/

set_option autoImplicit false

namespace Krl.Json

/-! ## Numerals -/

namespace Numeral

/-- One digit or more. -/
def IsDigits (cs : List Char) : Prop := cs ≠ [] ∧ ∀ c ∈ cs, c.isDigit = true

/-- Digits, with no zero in front of others. -/
def IsWhole (cs : List Char) : Prop := IsDigits cs ∧ (cs.length = 1 ∨ cs.head? ≠ some '0')

/-- Nothing, or a point and digits. -/
inductive IsFraction : List Nat → List Char → Prop
  | none : IsFraction [] []
  | point {cs : List Char} (h : IsDigits cs) : IsFraction (cs.map digit) ('.' :: cs)

/-- Nothing, or a mark and digits with perhaps a sign in front of them. -/
inductive IsExponent : Option Int → List Char → Prop
  | none : IsExponent none []
  | unsigned {mark : Char} {cs : List Char} (hmark : mark = 'e' ∨ mark = 'E') (h : IsDigits cs) :
      IsExponent (some (number 0 (cs.map digit))) (mark :: cs)
  | plus {mark : Char} {cs : List Char} (hmark : mark = 'e' ∨ mark = 'E') (h : IsDigits cs) :
      IsExponent (some (number 0 (cs.map digit))) (mark :: '+' :: cs)
  | minus {mark : Char} {cs : List Char} (hmark : mark = 'e' ∨ mark = 'E') (h : IsDigits cs) :
      IsExponent (some (-number 0 (cs.map digit))) (mark :: '-' :: cs)

/-- The characters write the numeral. -/
inductive IsText : Numeral → List Char → Prop
  | positive {ws fs es : List Char} {fraction : List Nat} {exponent : Option Int}
      (hwhole : IsWhole ws) (hfraction : IsFraction fraction fs)
      (hexponent : IsExponent exponent es) :
      IsText ⟨false, ws.map digit, fraction, exponent⟩ (ws ++ (fs ++ es))
  | negative {ws fs es : List Char} {fraction : List Nat} {exponent : Option Int}
      (hwhole : IsWhole ws) (hfraction : IsFraction fraction fs)
      (hexponent : IsExponent exponent es) :
      IsText ⟨true, ws.map digit, fraction, exponent⟩ ('-' :: (ws ++ (fs ++ es)))

end Numeral

/-! ## Strings -/

/-- Four hexadecimal digits that write the number. -/
def IsUnit (u : Nat) (digits : List Char) : Prop :=
  digits.length = 4 ∧ Text.number? 16 digits = some u

/-- What may stand behind a backslash, and the character that it stands for. -/
def shortEscapes : List (Char × Char) :=
  [('"', '"'), ('\\', '\\'), ('/', '/'), ('b', '\x08'), ('f', '\x0c'), ('n', '\n'), ('r', '\r'),
    ('t', '\t')]

/-- The ways to write a character of a string: as it is, behind a backslash, with the number of its
UTF-16 unit, or with those of both its units. -/
inductive Spells : Char → List Char → Prop
  | plain {c : Char} (hcontrol : 0x20 ≤ c.toNat) (hquote : c ≠ '"') (hescape : c ≠ '\\') :
      Spells c [c]
  | short {c mark : Char} (h : (mark, c) ∈ shortEscapes) : Spells c ['\\', mark]
  | unit {c : Char} {digits : List Char} (h : IsUnit c.toNat digits) :
      Spells c ('\\' :: 'u' :: digits)
  | pair {c : Char} {high low : List Char} (hc : 0x10000 ≤ c.toNat)
      (hhigh : IsUnit (0xD800 + (c.toNat - 0x10000) / 0x400) high)
      (hlow : IsUnit (0xDC00 + (c.toNat - 0x10000) % 0x400) low) :
      Spells c ('\\' :: 'u' :: (high ++ '\\' :: 'u' :: low))

/-- The characters between the quotes of a string. -/
inductive SpellsAll : List Char → List Char → Prop
  | nil : SpellsAll [] []
  | cons {c : Char} {s cs ds : List Char} (hc : Spells c cs) (hs : SpellsAll s ds) :
      SpellsAll (c :: s) (cs ++ ds)

/-- The characters write the text as a string. -/
inductive IsString : String → List Char → Prop
  | quoted {s : String} {cs : List Char} (h : SpellsAll s.toList cs) :
      IsString s ('"' :: (cs ++ ['"']))

/-! ## Values -/

/-- Nothing but blanks. -/
def Blanks (cs : List Char) : Prop := ∀ c ∈ cs, Token.isBlank c = true

mutual

/-- The characters write the value, with no blanks around it. -/
inductive IsText : Json → List Char → Prop
  | null : IsText .null ['n', 'u', 'l', 'l']
  | true : IsText (.bool true) ['t', 'r', 'u', 'e']
  | false : IsText (.bool false) ['f', 'a', 'l', 's', 'e']
  | int (n : Int) : IsText (.int n) (toString n).toList
  | real {x : Numeral} {cs : List Char} (h : x.IsText cs) : IsText (.real x) cs
  | string {s : String} {cs : List Char} (h : IsString s cs) : IsText (.string s) cs
  | emptyArray {bs : List Char} (h : Blanks bs) : IsText (.array []) ('[' :: (bs ++ [']']))
  | array {vs : List Json} {cs : List Char} (h : IsItems vs cs) :
      IsText (.array vs) ('[' :: (cs ++ [']']))
  | emptyObject {bs : List Char} (h : Blanks bs) : IsText (.object []) ('{' :: (bs ++ ['}']))
  | object {fs : List (String × Json)} {cs : List Char} (h : IsFields fs cs) :
      IsText (.object fs) ('{' :: (cs ++ ['}']))

/-- What stands between the brackets of an array with items. -/
inductive IsItems : List Json → List Char → Prop
  | last {v : Json} {bs cs ds : List Char} (hbs : Blanks bs) (h : IsText v cs) (hds : Blanks ds) :
      IsItems [v] (bs ++ (cs ++ ds))
  | cons {v : Json} {vs : List Json} {bs cs ds rest : List Char} (hbs : Blanks bs)
      (h : IsText v cs) (hds : Blanks ds) (hrest : IsItems vs rest) :
      IsItems (v :: vs) (bs ++ (cs ++ (ds ++ ',' :: rest)))

/-- What stands between the brackets of an object with fields. -/
inductive IsFields : List (String × Json) → List Char → Prop
  | last {f : String × Json} {cs : List Char} (h : IsField f cs) : IsFields [f] cs
  | cons {f : String × Json} {fs : List (String × Json)} {cs rest : List Char} (h : IsField f cs)
      (hrest : IsFields fs rest) : IsFields (f :: fs) (cs ++ ',' :: rest)

/-- A field, with the blanks around its name and its value. -/
inductive IsField : String × Json → List Char → Prop
  | mk {name : String} {v : Json} {bs ns ds es cs gs : List Char} (hbs : Blanks bs)
      (hname : IsString name ns) (hds : Blanks ds) (hes : Blanks es) (h : IsText v cs)
      (hgs : Blanks gs) :
      IsField (name, v) (bs ++ (ns ++ (ds ++ ':' :: (es ++ (cs ++ gs)))))

end

/-! ## Numerals that are printed -/

namespace Numeral

theorem digitChar_digit {c : Char} (h : c.isDigit = true) : Nat.digitChar (digit c) = c := by
  have hc : c.toNat = '0'.toNat + digit c := by
    simp only [Char.isDigit, Bool.and_eq_true, decide_eq_true_eq] at h
    have hlow : '0'.toNat ≤ c.toNat := h.1
    rw [digit]
    omega
  have hdigit : digit c < 10 := by
    simp only [Char.isDigit, Bool.and_eq_true, decide_eq_true_eq] at h
    have hhigh : c.toNat ≤ '9'.toNat := h.2
    have hnine : '9'.toNat = '0'.toNat + 9 := rfl
    omega
  have all : ∀ d ∈ List.range 10, Nat.digitChar d = Char.ofNat ('0'.toNat + d) := by decide
  rw [all _ (List.mem_range.2 hdigit), ← hc, Char.ofNat_toNat]

theorem isDigits_toDigits (n : Nat) : IsDigits (Nat.toDigits 10 n) :=
  ⟨Nat.toDigits_ne_nil, fun _ hc => Nat.isDigit_of_mem_toDigits (by decide) (by decide) hc⟩

theorem head?_toDigits {n : Nat} (h : 0 < n) : (Nat.toDigits 10 n).head? ≠ some '0' := by
  induction n using Nat.strong_induction_on with
  | _ n ih =>
    by_cases hn : n < 10
    · have all : ∀ m ∈ List.range 10, 0 < m → Nat.digitChar m ≠ '0' := by decide
      rw [Nat.toDigits_of_lt_base hn]
      simpa using all n (List.mem_range.2 hn) h
    · rw [Nat.toDigits_of_base_le (by decide) (by omega),
        List.head?_append_of_ne_nil _ Nat.toDigits_ne_nil]
      exact ih (n / 10) (by omega) (by omega)

theorem isWhole_toDigits (n : Nat) : IsWhole (Nat.toDigits 10 n) := by
  refine ⟨isDigits_toDigits n, ?_⟩
  rcases Nat.eq_zero_or_pos n with rfl | hn
  · left
    rfl
  · right
    exact head?_toDigits hn

theorem toList_toString (n : Int) :
    (toString n).toList = (if n < 0 then ['-'] else []) ++ Nat.toDigits 10 n.natAbs := by
  cases n with
  | ofNat n => simp [toString, Int.repr, Nat.repr]
  | negSucc n => simp [toString, Int.repr, Nat.repr, Int.negSucc_lt_zero]

theorem isText_ofInt (n : Int) : (ofInt n).IsText (toString n).toList := by
  rw [toList_toString]
  by_cases hn : n < 0
  · have h := IsText.negative (isWhole_toDigits n.natAbs) .none .none
    simpa [ofInt, ofNat, hn] using h
  · have h := IsText.positive (isWhole_toDigits n.natAbs) .none .none
    simpa [ofInt, ofNat, hn] using h

theorem toChars_ofInt (n : Int) : (ofInt n).toChars = (toString n).toList := by
  have hdigits : charsOfDigits ((Nat.toDigits 10 n.natAbs).map digit) =
      Nat.toDigits 10 n.natAbs := by
    rw [charsOfDigits, List.map_map]
    exact (List.map_congr_left fun c hc =>
      digitChar_digit ((isDigits_toDigits _).2 c hc)).trans (List.map_id _)
  rw [toList_toString, toChars]
  simp [ofInt, ofNat, hdigits]

end Numeral

/-! ## Strings that are printed -/

theorem hexDigit?_hexDigit {n : Nat} (h : n < 16) : Text.digit? 16 (hexDigit n) = some n := by
  have all : ∀ m ∈ List.range 16, Text.digit? 16 (hexDigit m) = some m := by decide
  exact all n (List.mem_range.2 h)

theorem spells_escape (c : Char) : Spells c (escape c) := by
  unfold escape
  -- the seven characters that have a mark of their own
  iterate 7
    split
    · next h => exact .short (by rw [h]; decide)
  split
  · next h =>
    refine .unit ⟨rfl, ?_⟩
    have hzero : Text.digit? 16 '0' = some 0 := by decide
    simp only [Text.number?, List.foldlM_cons, List.foldlM_nil, hzero,
      hexDigit?_hexDigit (show c.toNat / 16 < 16 by omega),
      hexDigit?_hexDigit (show c.toNat % 16 < 16 by omega), Option.map_some, Option.bind_eq_bind,
      Option.bind_some, Option.pure_def]
    congr 1
    omega
  · next hquote hescape _ _ _ _ _ hcontrol => exact .plain (by omega) hquote hescape

theorem isString_quote (s : String) : IsString s (quote s.toList) := by
  have hall : ∀ cs : List Char, SpellsAll cs (cs.flatMap escape) := by
    intro cs
    induction cs with
    | nil => exact .nil
    | cons c cs ih =>
      rw [List.flatMap_cons]
      exact .cons (spells_escape c) ih
  exact .quoted (hall s.toList)

/-! ## Values that are printed -/

/-- The style puts nothing but blanks between tokens. -/
structure Style.Blank (style : Style) : Prop where
  newline : ∀ depth, Blanks (style.newline depth)
  colon : ∃ bs, style.colon = ':' :: bs ∧ Blanks bs

theorem blanks_nil : Blanks [] := fun _ hc => absurd hc List.not_mem_nil

theorem Style.blank_compact : Style.compact.Blank :=
  ⟨fun _ => blanks_nil, [], rfl, blanks_nil⟩

theorem Style.blank_pretty : Style.pretty.Blank := by
  refine ⟨fun depth c hc => ?_, [' '], rfl, fun c hc => ?_⟩
  · rcases List.mem_cons.1 hc with rfl | hc
    · rfl
    · rw [List.eq_of_mem_replicate hc]
      rfl
  · rw [List.mem_singleton.1 hc]
    rfl

/-- Are all numbers inside of the value that are no integers written with digits? -/
def Proper (value : Json) : Prop :=
  ∀ x, value.Inside (.real x) → x.IsText x.toChars

theorem Proper.part {value part : Json} (h : value.Proper) (hpart : part ∈ value.parts) :
    part.Proper :=
  fun x hx => h x (inside_iff.2 (.inr ⟨part, hpart, hx⟩))

section
variable {style : Style}

mutual

/-- What is printed is a text of the value. -/
theorem isText_write (hstyle : style.Blank) (depth : Nat) :
    (v : Json) → v.Proper → IsText v (write style depth v)
  | .null, _ => by rw [write]; exact .null
  | .bool true, _ => by rw [write]; exact .true
  | .bool false, _ => by rw [write]; exact .false
  | .int n, _ => by
    rw [write, Numeral.toChars_ofInt]
    exact .int n
  | .real x, h => by
    rw [write]
    exact .real (h x (inside_iff.2 (.inl rfl)))
  | .string s, _ => by
    rw [write]
    exact .string (isString_quote s)
  | .array [], _ => by
    rw [write]
    exact .emptyArray blanks_nil
  | .array (v :: vs), h => by
    obtain ⟨cs, hcs, hitems⟩ := isItems_write hstyle depth vs
      (fun w hw => h.part (List.mem_cons_of_mem _ hw)) v
      (isText_write hstyle (depth + 1) v (h.part List.mem_cons_self))
    rw [write, List.append_assoc, hcs]
    exact .array hitems
  | .object [], _ => by
    rw [write]
    exact .emptyObject blanks_nil
  | .object (f :: fs), h => by
    obtain ⟨cs, hcs, hfields⟩ := isFields_write hstyle depth fs
      (fun g hg => h.part (List.mem_map_of_mem (List.mem_cons_of_mem _ hg))) f
      (isField_write hstyle depth f (h.part (List.mem_map_of_mem List.mem_cons_self)))
    rw [write, List.append_assoc, hcs]
    exact .object hfields

/-- The items of an array from one of them on, and its end. -/
theorem isItems_write (hstyle : style.Blank) (depth : Nat) :
    (vs : List Json) → (∀ w ∈ vs, w.Proper) → ∀ v, IsText v (write style (depth + 1) v) →
      ∃ cs, style.newline (depth + 1) ++ (write style (depth + 1) v ++
        writeItems style depth vs) = cs ++ [']'] ∧ IsItems (v :: vs) cs
  | [], _, v, hv =>
    ⟨_, by rw [writeItems]; simp only [List.append_assoc],
      .last (hstyle.newline (depth + 1)) hv (hstyle.newline depth)⟩
  | w :: ws, h, v, hv => by
    obtain ⟨cs, hcs, hitems⟩ := isItems_write hstyle depth ws
      (fun u hu => h u (List.mem_cons_of_mem _ hu)) w
      (isText_write hstyle (depth + 1) w (h w List.mem_cons_self))
    refine ⟨_, ?_, .cons (hstyle.newline (depth + 1)) hv blanks_nil hitems⟩
    rw [writeItems, List.append_assoc, hcs]
    simp only [List.append_assoc, List.cons_append, List.nil_append]

/-- The fields of an object from one of them on, and its end. -/
theorem isFields_write (hstyle : style.Blank) (depth : Nat) :
    (fs : List (String × Json)) → (∀ g ∈ fs, g.2.Proper) → ∀ f,
      (∀ gs, Blanks gs →
        IsField f (style.newline (depth + 1) ++ (writeField style (depth + 1) f ++ gs))) →
      ∃ cs, style.newline (depth + 1) ++ (writeField style (depth + 1) f ++
        writeFields style depth fs) = cs ++ ['}'] ∧ IsFields (f :: fs) cs
  | [], _, f, hf =>
    ⟨_, by rw [writeFields]; simp only [List.append_assoc], .last (hf _ (hstyle.newline depth))⟩
  | g :: gs, h, f, hf => by
    obtain ⟨cs, hcs, hfields⟩ := isFields_write hstyle depth gs
      (fun u hu => h u (List.mem_cons_of_mem _ hu)) g
      (isField_write hstyle depth g (h g List.mem_cons_self))
    refine ⟨_, ?_, .cons (hf [] blanks_nil) hfields⟩
    rw [writeFields, List.append_assoc, hcs]
    simp only [List.append_assoc, List.cons_append, List.append_nil]

theorem isField_write (hstyle : style.Blank) (depth : Nat) :
    (f : String × Json) → f.2.Proper → ∀ gs, Blanks gs →
      IsField f (style.newline (depth + 1) ++ (writeField style (depth + 1) f ++ gs))
  | (name, v), h, gs, hgs => by
    obtain ⟨bs, hcolon, hbs⟩ := hstyle.colon
    have hfield := IsField.mk (hstyle.newline (depth + 1)) (isString_quote name) blanks_nil hbs
      (isText_write hstyle (depth + 1) v h) hgs
    rw [writeField, hcolon]
    simpa only [List.append_assoc, List.cons_append, List.nil_append] using hfield

end

end

end Krl.Json
