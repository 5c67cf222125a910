import Krl.Proofs.Json.Text

/-!
# Reading a text of a JSON value

A text of a value is read, and what is read stands for the value. The reader of tokens is between
two of them in front of each value, and what it has read behind one is settled by whatever comes
next; the reader of trees waits for a value in front of it, whatever is open around it.

* `Numeral.ofChars?_of_isText`: numerals.
* `exists_ofChars?`: every text of a value is read as a tree that stands for the value.
-/

set_option autoImplicit false

namespace Krl.Json

/-! ## Numerals -/

namespace Numeral

section
variable {x : Numeral} {cs rest : List Char}

theorem digits?_append (h : IsDigits cs) (hrest : ∀ c ∈ rest.head?, c.isDigit = false) :
    digits? (cs ++ rest) = some (cs.map digit, rest) := by
  have htake : rest.takeWhile Char.isDigit = [] := by
    cases rest with
    | nil => rfl
    | cons c rest => rw [List.takeWhile_cons_of_neg (by simp [hrest c rfl])]
  have hdrop : rest.dropWhile Char.isDigit = rest := by
    cases rest with
    | nil => rfl
    | cons c rest => rw [List.dropWhile_cons_of_neg (by simp [hrest c rfl])]
  obtain ⟨hne, hall⟩ := h
  rw [digits?, List.takeWhile_append_of_pos hall, List.dropWhile_append_of_pos hall, htake, hdrop,
    List.append_nil]
  cases cs with
  | nil => exact absurd rfl hne
  | cons c cs => rfl

theorem digit_eq_zero_iff {c : Char} (h : c.isDigit = true) : digit c = 0 ↔ c = '0' := by
  constructor
  · intro hc
    rw [← digitChar_digit h, hc]
    rfl
  · rintro rfl
    rfl

theorem whole?_append (h : IsWhole cs) (hrest : ∀ c ∈ rest.head?, c.isDigit = false) :
    whole? (cs ++ rest) = some (cs.map digit, rest) := by
  obtain ⟨hdigits, hlead⟩ := h
  rw [whole?, digits?_append hdigits hrest, Option.filter_some, if_pos]
  rw [Bool.or_eq_true]
  refine hlead.imp (fun hlength => by simpa using hlength) fun hhead => ?_
  cases cs with
  | nil => rfl
  | cons c cs =>
    have hc : c ≠ '0' := by
      rintro rfl
      exact hhead rfl
    simpa [digit_eq_zero_iff (hdigits.2 c List.mem_cons_self)] using hc

/-- What an exponent starts with. -/
theorem IsExponent.head? {exponent : Option Int} (h : IsExponent exponent cs) :
    ∀ c ∈ cs.head?, c = 'e' ∨ c = 'E' := by
  cases h with
  | none => simp
  | unsigned hmark | plus hmark | minus hmark =>
    intro c hc
    cases hc
    exact hmark

theorem exponent?_eq {exponent : Option Int} (h : IsExponent exponent cs) :
    exponent? cs = some (exponent, []) := by
  have digits?_eq : ∀ {ds : List Char}, IsDigits ds → digits? ds = some (ds.map digit, []) := by
    intro ds hds
    have hread := @digits?_append ds [] hds (by simp)
    rwa [List.append_nil] at hread
  cases h with
  | none => rfl
  | @unsigned mark ds hmark hds =>
    obtain ⟨d, ds, rfl⟩ := List.exists_cons_of_ne_nil hds.1
    have hsign : sign (d :: ds) = (false, d :: ds) := by
      have hd := hds.2 d List.mem_cons_self
      unfold sign
      split
      · next heq => cases heq; simp at hd
      · next heq => cases heq; simp at hd
      · rfl
    simp [exponent?, hmark, hsign, digits?_eq hds]
  | plus hmark hds => simp [exponent?, hmark, sign, digits?_eq hds]
  | minus hmark hds => simp [exponent?, hmark, sign, digits?_eq hds]

theorem fraction?_append {fraction : List Nat} (h : IsFraction fraction cs)
    (hrest : ∀ c ∈ rest.head?, c = 'e' ∨ c = 'E') :
    fraction? (cs ++ rest) = some (fraction, rest) := by
  cases h with
  | none =>
    rw [List.nil_append]
    unfold fraction?
    split
    · next heq => simpa using hrest '.' rfl
    · rfl
  | point hds =>
    rw [List.cons_append, fraction?]
    refine digits?_append hds fun c hc => ?_
    rcases hrest c hc with rfl | rfl <;> rfl

theorem IsFraction.head?_append {fraction : List Nat} (h : IsFraction fraction cs)
    (hrest : ∀ c ∈ rest.head?, c = 'e' ∨ c = 'E') :
    ∀ c ∈ (cs ++ rest).head?, c.isDigit = false := by
  intro c hc
  cases h with
  | none => rcases hrest c hc with rfl | rfl <;> rfl
  | point =>
    cases hc
    rfl

/-- A text of a numeral is read as that. -/
theorem ofChars?_of_isText (h : x.IsText cs) : ofChars? cs = some x := by
  cases h with
  | @positive ws fs es fraction exponent hwhole hfraction hexponent =>
    obtain ⟨w, ws, rfl⟩ := List.exists_cons_of_ne_nil hwhole.1.1
    have hw : w ≠ '-' := by
      rintro rfl
      simpa using hwhole.1.2 '-' List.mem_cons_self
    have hread := whole?_append hwhole (hfraction.head?_append hexponent.head?)
    rw [List.cons_append] at hread
    simp [ofChars?, hw, hread, fraction?_append hfraction hexponent.head?,
      exponent?_eq hexponent]
  | @negative ws fs es fraction exponent hwhole hfraction hexponent =>
    have hread := whole?_append hwhole (hfraction.head?_append hexponent.head?)
    simp [ofChars?, hread, fraction?_append hfraction hexponent.head?, exponent?_eq hexponent]

end

end Numeral

/-! ## Strings -/

namespace Token

section
variable {cs ds : List Char} {ts us : List Token} {c : Char}

/-- Four digits behind `\u` are read as the number that they write. -/
theorem foldlM_of_isUnit {u : Nat} (h : IsUnit u cs) (rev : List StringItem) (toks : List Token) :
    cs.foldlM Reader.next? ⟨.hex rev 4 0, toks⟩ = some ⟨.string (.unit u :: rev), toks⟩ := by
  obtain ⟨hlength, hnumber⟩ := h
  obtain ⟨a, b, c, d, rfl⟩ : ∃ a b c d, cs = [a, b, c, d] := by
    rcases cs with _ | ⟨a, _ | ⟨b, _ | ⟨c, _ | ⟨d, _ | ⟨e, cs⟩⟩⟩⟩⟩ <;> simp_all
  have hdigit : ∀ {c : Char} {n : Nat}, Text.digit? 16 c = some n → Text.hexDigit? c = some n :=
    fun h => (Option.filter_eq_some_iff.1 h).1
  simp only [Text.number?, List.foldlM_cons, List.foldlM_nil, Option.bind_eq_bind,
    Option.bind_eq_some_iff, Option.map_eq_some_iff, Option.pure_def, Option.some.injEq] at hnumber
  obtain ⟨_, ⟨i, hi, rfl⟩, _, ⟨j, hj, rfl⟩, _, ⟨k, hk, rfl⟩, _, ⟨l, hl, rfl⟩, rfl⟩ := hnumber
  simp [Reader.next?, hdigit hi, hdigit hj, hdigit hk, hdigit hl]

theorem escaped?_of_mem {mark : Char} (h : (mark, c) ∈ shortEscapes) :
    escaped? mark = some c ∧ mark ≠ 'u' := by
  have all : ∀ e ∈ shortEscapes, escaped? e.1 = some e.2 ∧ e.1 ≠ 'u' := by decide
  exact all _ h

/-- A character of a string is read in any of its spellings, as items with that as their text. -/
theorem foldlM_of_spells (h : Spells c cs) : ∃ items,
    (∀ rest, StringItem.text? (items ++ rest) = (StringItem.text? rest).map (c :: ·)) ∧
      ∀ rev toks, cs.foldlM Reader.next? ⟨.string rev, toks⟩ =
        some ⟨.string (items.reverse ++ rev), toks⟩ := by
  cases h with
  | plain hcontrol hquote hescape =>
    refine ⟨[.char c], fun rest => rfl, fun rev toks => ?_⟩
    simp [Reader.next?, hquote, hescape, Nat.not_lt.2 hcontrol]
  | short hmark =>
    obtain ⟨hescaped, hu⟩ := escaped?_of_mem hmark
    refine ⟨[.char c], fun rest => rfl, fun rev toks => ?_⟩
    simp [Reader.next?, hescaped, hu]
  | unit hdigits =>
    refine ⟨[.unit c.toNat], fun rest => ?_, fun rev toks => ?_⟩
    · have hvalid : c.toNat < 0xD800 ∨ 0xDFFF < c.toNat ∧ c.toNat < 0x110000 := c.valid
      rw [List.singleton_append, StringItem.text?.eq_def]
      simp only [Char.ofNat_toNat]
      rw [if_neg (by omega), if_neg (by omega)]
    · have hread := foldlM_of_isUnit hdigits rev toks
      simpa [Reader.next?] using hread
  | pair hc hhigh hlow =>
    have hvalid : c.toNat < 0xD800 ∨ 0xDFFF < c.toNat ∧ c.toNat < 0x110000 := c.valid
    refine ⟨[.unit (0xD800 + (c.toNat - 0x10000) / 0x400),
      .unit (0xDC00 + (c.toNat - 0x10000) % 0x400)], fun rest => ?_, fun rev toks => ?_⟩
    · have hpair : pairChar (0xD800 + (c.toNat - 0x10000) / 0x400)
          (0xDC00 + (c.toNat - 0x10000) % 0x400) = c := by
        have hsum : 0x10000 + (0xD800 + (c.toNat - 0x10000) / 0x400 - 0xD800) * 0x400 +
            (0xDC00 + (c.toNat - 0x10000) % 0x400 - 0xDC00) = c.toNat := by omega
        rw [pairChar, hsum, Char.ofNat_toNat]
      rw [List.cons_append, List.singleton_append, StringItem.text?, if_pos (by omega)]
      simp only [hpair]
      rw [if_pos (by omega)]
    · have hfirst := foldlM_of_isUnit hhigh rev toks
      have hsecond := foldlM_of_isUnit hlow
        (.unit (0xD800 + (c.toNat - 0x10000) / 0x400) :: rev) toks
      simp [Reader.next?, hfirst, hsecond]

theorem foldlM_of_spellsAll {s : List Char} (h : SpellsAll s cs) : ∃ items,
    StringItem.text? items = some s ∧
      ∀ rev toks, cs.foldlM Reader.next? ⟨.string rev, toks⟩ =
        some ⟨.string (items.reverse ++ rev), toks⟩ := by
  induction h with
  | nil => exact ⟨[], rfl, fun rev toks => rfl⟩
  | cons hc hs ih =>
    obtain ⟨items, htext, hread⟩ := foldlM_of_spells hc
    obtain ⟨rest, hrest, hreadRest⟩ := ih
    refine ⟨items ++ rest, by rw [htext, hrest, Option.map_some], fun rev toks => ?_⟩
    rw [List.foldlM_append, hread, Option.bind_eq_bind, Option.bind_some, hreadRest,
      List.reverse_append, List.append_assoc]

/-! ## Tokens -/

/-- Between two tokens, the reader gets these from the characters; the last one of them may have to
be settled. -/
def Reads (cs : List Char) (ts : List Token) : Prop :=
  ∀ rev, ∃ r, cs.foldlM Reader.next? ⟨.between, rev⟩ = some r ∧
    r.settle? = some (ts.reverse ++ rev)

theorem Reads.nil : Reads [] [] := fun _ => ⟨_, rfl, rfl⟩

theorem Reader.next?_of_settle? {r : Reader} {rev : List Token} (h : r.settle? = some rev)
    (c : Char) : r.next? c = r.outside? c := by
  rcases r with ⟨place, toks⟩
  cases place with
  | between | word => rfl
  | string | escape | hex => cases h

theorem isBlank_eq_false (hspace : c ≠ ' ') (htab : c ≠ '\t') (hfeed : c ≠ '\n')
    (hreturn : c ≠ '\r') : isBlank c = false := by
  simp [isBlank, hspace, htab, hfeed, hreturn]

theorem Reads.mark {t : Token} (h : Reads cs ts) (hc : ofMark? c = some t) (h' : Reads ds us) :
    Reads (cs ++ c :: ds) (ts ++ t :: us) := by
  intro rev
  obtain ⟨r, hr, hsettle⟩ := h rev
  obtain ⟨r', hr', hsettle'⟩ := h' (t :: (ts.reverse ++ rev))
  have hquote : c ≠ '"' := by
    rintro rfl
    cases hc
  have hblank : isBlank c = false := by
    apply isBlank_eq_false <;> rintro rfl <;> cases hc
  refine ⟨r', ?_, by simpa using hsettle'⟩
  rw [List.foldlM_append, hr, Option.bind_eq_bind, Option.bind_some, List.foldlM_cons,
    Reader.next?_of_settle? hsettle, Reader.outside?, if_neg hquote, hblank]
  simpa [hc, hsettle] using hr'

theorem Reads.blank (h : Reads cs ts) (hc : isBlank c = true) (h' : Reads ds us) :
    Reads (cs ++ c :: ds) (ts ++ us) := by
  intro rev
  obtain ⟨r, hr, hsettle⟩ := h rev
  obtain ⟨r', hr', hsettle'⟩ := h' (ts.reverse ++ rev)
  have hquote : c ≠ '"' := by
    rintro rfl
    cases hc
  refine ⟨r', ?_, by simpa using hsettle'⟩
  rw [List.foldlM_append, hr, Option.bind_eq_bind, Option.bind_some, List.foldlM_cons,
    Reader.next?_of_settle? hsettle, Reader.outside?, if_neg hquote, if_pos hc]
  simpa [hsettle] using hr'

theorem Reads.after_blanks {bs : List Char} (hbs : Blanks bs) (h : Reads cs ts) :
    Reads (bs ++ cs) ts := by
  induction bs with
  | nil => exact h
  | cons b bs ih =>
    exact .blank .nil (hbs b List.mem_cons_self) (ih fun c hc => hbs c (List.mem_cons_of_mem _ hc))

theorem Reads.before_blanks {bs : List Char} (h : Reads cs ts) (hbs : Blanks bs) :
    Reads (cs ++ bs) ts := by
  cases bs with
  | nil => rwa [List.append_nil]
  | cons b bs =>
    have hrest : Reads (bs ++ []) [] :=
      .after_blanks (fun c hc => hbs c (List.mem_cons_of_mem _ hc)) .nil
    rw [List.append_nil] at hrest
    simpa using h.blank (hbs b List.mem_cons_self) hrest

theorem reads_string {s : String} (h : IsString s cs) :
    ∃ items, StringItem.text? items = some s.toList ∧ Reads cs [.string items] := by
  obtain ⟨hs⟩ := h
  obtain ⟨items, htext, hread⟩ := foldlM_of_spellsAll hs
  refine ⟨items, htext, fun rev => ⟨⟨.between, .string items :: rev⟩, ?_, rfl⟩⟩
  have hopen : Reader.next? ⟨.between, rev⟩ '"' = some ⟨.string [], rev⟩ := rfl
  rw [List.foldlM_cons, hopen, Option.bind_eq_bind, Option.bind_some, List.foldlM_append, hread]
  simp [Reader.next?]

/-- The character may stand in a word. -/
def InWord (c : Char) : Prop := c ≠ '"' ∧ isBlank c = false ∧ ofMark? c = none

instance (c : Char) : Decidable (InWord c) :=
  inferInstanceAs (Decidable (c ≠ '"' ∧ isBlank c = false ∧ ofMark? c = none))

theorem foldlM_word (h : ∀ c ∈ cs, InWord c) (w : List Char) (toks : List Token) :
    cs.foldlM Reader.next? ⟨.word w, toks⟩ = some ⟨.word (cs.reverse ++ w), toks⟩ := by
  induction cs generalizing w with
  | nil => rfl
  | cons c cs ih =>
    obtain ⟨hquote, hblank, hmark⟩ := h c List.mem_cons_self
    have hnext : Reader.next? ⟨.word w, toks⟩ c = some ⟨.word (c :: w), toks⟩ := by
      simp [Reader.next?, Reader.outside?, hquote, hblank, hmark]
    rw [List.foldlM_cons, hnext, Option.bind_eq_bind, Option.bind_some,
      ih fun d hd => h d (List.mem_cons_of_mem _ hd)]
    simp

theorem reads_word {t : Token} (hne : cs ≠ []) (h : ∀ c ∈ cs, InWord c)
    (ht : ofWord? cs = some t) : Reads cs [t] := by
  obtain ⟨c, cs, rfl⟩ := List.exists_cons_of_ne_nil hne
  intro rev
  obtain ⟨hquote, hblank, hmark⟩ := h c List.mem_cons_self
  have hnext : Reader.next? ⟨.between, rev⟩ c = some ⟨.word [c], rev⟩ := by
    simp [Reader.next?, Reader.outside?, hquote, hblank, hmark]
  refine ⟨⟨.word (cs.reverse ++ [c]), rev⟩, ?_, by simp [Reader.settle?, ht]⟩
  rw [List.foldlM_cons, hnext, Option.bind_eq_bind, Option.bind_some,
    foldlM_word fun d hd => h d (List.mem_cons_of_mem _ hd)]

theorem inWord_of_all (h : cs.all (fun c => decide (InWord c)) = true) : ∀ c ∈ cs, InWord c := by
  simpa using h

theorem inWord_of_isDigit (h : c.isDigit = true) : InWord c := by
  refine ⟨?_, ?_, ?_⟩
  · rintro rfl
    cases h
  · apply isBlank_eq_false <;> rintro rfl <;> cases h
  · unfold ofMark?
    split
    case h_7 => rfl
    all_goals cases h

theorem inWord_of_isFraction {fraction : List Nat} (h : Numeral.IsFraction fraction cs) :
    ∀ c ∈ cs, InWord c := by
  cases h with
  | none => simp
  | point hds =>
    exact List.forall_mem_cons.2
      ⟨by decide, fun c hc => inWord_of_isDigit (hds.2 c hc)⟩

theorem inWord_of_isExponent {exponent : Option Int} (h : Numeral.IsExponent exponent cs) :
    ∀ c ∈ cs, InWord c := by
  have hdigits : ∀ {ds : List Char}, Numeral.IsDigits ds → ∀ c ∈ ds, InWord c :=
    fun hds c hc => inWord_of_isDigit (hds.2 c hc)
  have hmarks : ∀ {mark : Char}, mark = 'e' ∨ mark = 'E' → InWord mark := by
    rintro mark (rfl | rfl) <;> decide
  cases h with
  | none => simp
  | unsigned hmark hds => exact List.forall_mem_cons.2 ⟨hmarks hmark, hdigits hds⟩
  | plus hmark hds | minus hmark hds =>
    exact List.forall_mem_cons.2
      ⟨hmarks hmark, List.forall_mem_cons.2 ⟨by decide, hdigits hds⟩⟩

theorem inWord_of_isText {x : Numeral} (h : x.IsText cs) : ∀ c ∈ cs, InWord c := by
  have hall : ∀ {ws fs es : List Char} {fraction : List Nat} {exponent : Option Int},
      Numeral.IsWhole ws → Numeral.IsFraction fraction fs → Numeral.IsExponent exponent es →
      ∀ c ∈ ws ++ (fs ++ es), InWord c := by
    intro ws fs es fraction exponent hwhole hfraction hexponent c hc
    rcases List.mem_append.1 hc with hc | hc
    · exact inWord_of_isDigit (hwhole.1.2 c hc)
    rcases List.mem_append.1 hc with hc | hc
    · exact inWord_of_isFraction hfraction c hc
    · exact inWord_of_isExponent hexponent c hc
  cases h with
  | positive hwhole hfraction hexponent => exact hall hwhole hfraction hexponent
  | negative hwhole hfraction hexponent =>
    exact List.forall_mem_cons.2 ⟨by decide, hall hwhole hfraction hexponent⟩

theorem reads_numeral {x : Numeral} (h : x.IsText cs) : Reads cs [.number x] := by
  have hread := Numeral.ofChars?_of_isText h
  have hne : ∀ {word : List Char}, Numeral.ofChars? word = none → cs ≠ word := by
    rintro word hword rfl
    rw [hread] at hword
    cases hword
  refine reads_word (hne rfl) (inWord_of_isText h) ?_
  -- no word with a meaning of its own is a numeral
  rw [ofWord?, if_neg (hne rfl), if_neg (hne rfl), if_neg (hne rfl), hread, Option.map_some]

theorem tokens?_of_reads (h : Reads cs ts) : tokens? cs = some ts := by
  obtain ⟨r, hr, hsettle⟩ := h []
  simp only [tokens?, hr, Option.bind_some, hsettle, Option.map_some, List.append_nil,
    List.reverse_reverse]

end

end Token

/-! ## Trees -/

/-- A field stands for one of the same name if its tree stands for the value of that. -/
inductive Named (R : Tree → Json → Prop) : List StringItem × Tree → String × Json → Prop
  | mk {items : List StringItem} {t : Tree} {name : String} {v : Json}
      (hname : StringItem.text? items = some name.toList) (hvalue : R t v) :
      Named R (items, t) (name, v)

/-- The tree stands for the value: its strings have that text, however they are written. -/
inductive Stands : Tree → Json → Prop
  | null : Stands .null .null
  | bool (b : Bool) : Stands (.bool b) (.bool b)
  | int (n : Int) : Stands (.number (.ofInt n)) (.int n)
  | real (x : Numeral) : Stands (.number x) (.real x)
  | string {items : List StringItem} {s : String} (h : StringItem.text? items = some s.toList) :
      Stands (.string items) (.string s)
  | array {ts : List Tree} {vs : List Json} (h : List.Forall₂ Stands ts vs) :
      Stands (.array ts) (.array vs)
  | object {fs : List (List StringItem × Tree)} {gs : List (String × Json)}
      (h : List.Forall₂ (Named Stands) fs gs) : Stands (.object fs) (.object gs)

namespace Tree

/-- Where it waits for a value, the reader of trees gets this tree from the tokens. -/
def Parses (ts : List Token) (tree : Tree) : Prop :=
  ∀ frames, ts.foldlM Reader.next? (.value frames) = some (.done tree frames)

/-- Where it waits for an item, the reader gets these and the end of the array. -/
def ParsesItems (ts : List Token) (items : List Tree) : Prop :=
  ∀ rev frames, (ts ++ [Token.closeArray]).foldlM Reader.next? (.value (.array rev :: frames)) =
    some (.done (.array (rev.reverse ++ items)) frames)

/-- Where it waits for a name, the reader gets these fields and the end of the object. -/
def ParsesFields (ts : List Token) (fields : List (List StringItem × Tree)) : Prop :=
  ∀ rev frames, (ts ++ [Token.closeObject]).foldlM Reader.next? (.name rev frames) =
    some (.done (.object (rev.reverse ++ fields)) frames)

section
variable {ts us : List Token} {tree : Tree} {items : List Tree}
  {fields : List (List StringItem × Tree)} {key : List StringItem}

theorem ParsesItems.last (h : Parses ts tree) : ParsesItems ts [tree] := by
  intro rev frames
  rw [List.foldlM_append, h]
  simp [Reader.next?]

theorem ParsesItems.cons (h : Parses ts tree) (h' : ParsesItems us items) :
    ParsesItems (ts ++ .comma :: us) (tree :: items) := by
  intro rev frames
  rw [List.append_assoc, List.foldlM_append, h, Option.bind_eq_bind, Option.bind_some,
    List.cons_append, List.foldlM_cons]
  simp only [Reader.next?, Option.bind_eq_bind, Option.bind_some]
  rw [h']
  simp

theorem ParsesFields.last (h : Parses ts tree) :
    ParsesFields (.string key :: .colon :: ts) [(key, tree)] := by
  intro rev frames
  simp only [List.cons_append, List.foldlM_cons, Reader.next?, Option.bind_eq_bind,
    Option.bind_some, List.foldlM_append, h (.object rev key :: frames)]
  simp

theorem ParsesFields.cons (h : Parses ts tree) (h' : ParsesFields us fields) :
    ParsesFields (.string key :: .colon :: ts ++ .comma :: us) ((key, tree) :: fields) := by
  intro rev frames
  simp only [List.cons_append, List.append_assoc, List.foldlM_cons, Reader.next?,
    Option.bind_eq_bind, Option.bind_some]
  rw [List.foldlM_append, h (.object rev key :: frames), Option.bind_eq_bind, Option.bind_some,
    List.foldlM_cons]
  simp only [Reader.next?, Option.bind_eq_bind, Option.bind_some]
  rw [h']
  simp

/-- The first item of an array is read as any other one. -/
theorem ParsesItems.parses (h : ParsesItems ts items) :
    Parses (.openArray :: (ts ++ [.closeArray])) (.array items) := by
  intro frames
  have hread := h [] frames
  have hopen : Reader.next? (.value frames) .openArray = some (.first frames) := rfl
  rw [List.foldlM_cons, hopen, Option.bind_eq_bind, Option.bind_some]
  obtain ⟨t, us, heq⟩ := List.exists_cons_of_ne_nil
    (List.append_ne_nil_of_right_ne_nil ts (List.cons_ne_nil Token.closeArray []))
  rw [heq, List.foldlM_cons] at hread ⊢
  have hfirst : Reader.next? (.first frames) t = Reader.next? (.value (.array [] :: frames)) t := by
    cases t with
    | closeArray => cases hread
    | _ => rfl
  rw [hfirst]
  exact hread

theorem ParsesFields.parses (h : ParsesFields ts fields) :
    Parses (.openObject :: (ts ++ [.closeObject])) (.object fields) := by
  intro frames
  have hread := h [] frames
  simpa [Reader.next?, Reader.begin?] using hread

end

end Tree

/-! ## Texts -/

open Token (Reads reads_word reads_numeral reads_string inWord_of_all)

theorem reads_field {bs ns ds es cs gs : List Char} {key : List StringItem} {ts : List Token}
    (hbs : Blanks bs) (hkey : Reads ns [.string key]) (hds : Blanks ds) (hes : Blanks es)
    (h : Reads cs ts) (hgs : Blanks gs) :
    Reads (bs ++ (ns ++ (ds ++ ':' :: (es ++ (cs ++ gs))))) (.string key :: .colon :: ts) := by
  have hcolon : Token.ofMark? ':' = some .colon := rfl
  refine .after_blanks hbs ?_
  rw [← List.append_assoc]
  exact (hkey.before_blanks hds).mark hcolon (.after_blanks hes (h.before_blanks hgs))

theorem reads_comma {cs ds : List Char} {ts us : List Token} (h : Reads cs ts) (h' : Reads ds us) :
    Reads (cs ++ ',' :: ds) (ts ++ .comma :: us) :=
  h.mark rfl h'

theorem reads_array {cs : List Char} {ts : List Token} (h : Reads cs ts) :
    Reads ('[' :: (cs ++ [']'])) (.openArray :: (ts ++ [.closeArray])) :=
  Reads.nil.mark rfl (h.mark rfl .nil)

theorem reads_object {cs : List Char} {ts : List Token} (h : Reads cs ts) :
    Reads ('{' :: (cs ++ ['}'])) (.openObject :: (ts ++ [.closeObject])) :=
  Reads.nil.mark rfl (h.mark rfl .nil)

mutual

/-- The tokens of a text, and the tree that is read from them. -/
theorem exists_tree : (v : Json) → ∀ {cs}, IsText v cs →
    ∃ ts t, Reads cs ts ∧ Tree.Parses ts t ∧ Stands t v
  | .null, _, .null =>
    ⟨_, _, reads_word (by decide) (inWord_of_all (by decide)) rfl, fun _ => rfl, .null⟩
  | .bool true, _, .true =>
    ⟨_, _, reads_word (by decide) (inWord_of_all (by decide)) rfl, fun _ => rfl, .bool true⟩
  | .bool false, _, .false =>
    ⟨_, _, reads_word (by decide) (inWord_of_all (by decide)) rfl, fun _ => rfl, .bool false⟩
  | .int n, _, .int _ =>
    ⟨_, _, reads_numeral (Numeral.isText_ofInt n), fun _ => rfl, .int n⟩
  | .real x, _, .real h => ⟨_, _, reads_numeral h, fun _ => rfl, .real x⟩
  | .string s, _, .string h => by
    obtain ⟨items, htext, hreads⟩ := reads_string h
    exact ⟨_, _, hreads, fun _ => rfl, .string htext⟩
  | .array [], _, .emptyArray hbs =>
    ⟨_, _, reads_array (Reads.nil.before_blanks hbs), fun _ => rfl, .array .nil⟩
  | .array vs, _, .array h => by
    obtain ⟨ts, items, hreads, hparses, hstands⟩ := exists_items vs h
    exact ⟨_, _, reads_array hreads, hparses.parses, .array hstands⟩
  | .object [], _, .emptyObject hbs =>
    ⟨_, _, reads_object (Reads.nil.before_blanks hbs), fun _ => rfl, .object .nil⟩
  | .object fs, _, .object h => by
    obtain ⟨ts, fields, hreads, hparses, hstands⟩ := exists_fields fs h
    exact ⟨_, _, reads_object hreads, hparses.parses, .object hstands⟩

theorem exists_items : (vs : List Json) → ∀ {cs}, IsItems vs cs →
    ∃ ts items, Reads cs ts ∧ Tree.ParsesItems ts items ∧ List.Forall₂ Stands items vs
  | [v], _, .last hbs h hds => by
    obtain ⟨ts, t, hreads, hparses, hstands⟩ := exists_tree v h
    exact ⟨_, _, Reads.after_blanks hbs (hreads.before_blanks hds), .last hparses,
      .cons hstands .nil⟩
  | v :: vs, _, .cons hbs h hds hrest => by
    obtain ⟨ts, t, hreads, hparses, hstands⟩ := exists_tree v h
    obtain ⟨us, items, hreads', hparses', hstands'⟩ := exists_items vs hrest
    refine ⟨_, _, ?_, .cons hparses hparses', .cons hstands hstands'⟩
    have hitems := reads_comma (Reads.after_blanks hbs (hreads.before_blanks hds)) hreads'
    simpa only [List.append_assoc] using hitems

theorem exists_fields : (fs : List (String × Json)) → ∀ {cs}, IsFields fs cs →
    ∃ ts fields, Reads cs ts ∧ Tree.ParsesFields ts fields ∧
      List.Forall₂ (Named Stands) fields fs
  | [f], _, .last h => by
    obtain ⟨key, ts, t, hreads, hparses, hstands⟩ := exists_field f h
    exact ⟨_, _, hreads, .last hparses, .cons hstands .nil⟩
  | f :: fs, _, .cons h hrest => by
    obtain ⟨key, ts, t, hreads, hparses, hstands⟩ := exists_field f h
    obtain ⟨us, fields, hreads', hparses', hstands'⟩ := exists_fields fs hrest
    exact ⟨_, _, reads_comma hreads hreads', .cons hparses hparses', .cons hstands hstands'⟩

theorem exists_field : (f : String × Json) → ∀ {cs}, IsField f cs →
    ∃ key ts t, Reads cs (.string key :: .colon :: ts) ∧ Tree.Parses ts t ∧
      Named Stands (key, t) f
  | (name, v), _, .mk hbs hname hds hes h hgs => by
    obtain ⟨key, htext, hkey⟩ := reads_string hname
    obtain ⟨ts, t, hreads, hparses, hstands⟩ := exists_tree v h
    exact ⟨key, ts, t, reads_field hbs hkey hds hes hreads hgs, hparses, ⟨htext, hstands⟩⟩

end

/-- Every text of a value is read, as a tree that stands for the value. -/
theorem exists_ofChars? {v : Json} {cs : List Char} (h : IsText v cs) :
    ∃ t, Tree.ofChars? cs = some t ∧ Stands t v := by
  obtain ⟨ts, t, hreads, hparses, hstands⟩ := exists_tree v h
  refine ⟨t, ?_, hstands⟩
  rw [Tree.ofChars?, Token.tokens?_of_reads hreads, Option.bind_some, Tree.ofTokens?, hparses]
  rfl

end Krl.Json
