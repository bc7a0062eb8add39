/-
Reading all of JSON.

The reader reads every text of the grammar as the value that the text denotes (`ofText?_of_denotes`).
So a text denotes one value at most, and a value that is written is read back, whatever the writer
chose.  Escapes are the delicate part: the code units of escapes that follow each other are kept until
the run ends, and they make up whole characters then (`ofUnits_flatMap_codeUnits`).
-/
import UnitCheck.Json.Reader
import UnitCheck.Proofs.Json.Grammar

namespace UnitCheck.Json

/-! ### White space -/

lemma skipSpace_append {space : List Char} (h : IsSpace space) (text : List Char) :
    skipSpace (space ++ text) = skipSpace text := by
  refine List.dropWhile_append_of_pos fun c hc => ?_
  rcases h c hc with rfl | rfl | rfl | rfl <;> rfl

lemma skipSpace_eq_nil {space : List Char} (h : IsSpace space) : skipSpace space = [] := by
  rw [← List.append_nil space, skipSpace_append h]
  rfl

@[simp]
lemma expect?_cons_self (c : Char) (text : List Char) : expect? c (c :: text) = some text :=
  if_pos rfl

/-- White space in front of a value is passed over. -/
lemma readValue_append {space : List Char} (h : IsSpace space) (depth : Nat) (text : List Char) :
    readValue depth (space ++ text) = readValue depth text := by
  cases depth with
  | zero => rfl
  | succ depth => rw [readValue, readValue, skipSpace_append h]

/-! ### Strings -/

/-- The code units of a character make up that character, whatever comes behind. -/
lemma ofUnits_codeUnits_append (c : Char) (units : List Nat) :
    ofUnits (codeUnits c ++ units) = c :: ofUnits units := by
  have hvalid : c.toNat < 0xD800 ∨ 0xDFFF < c.toNat ∧ c.toNat < 0x110000 := c.valid
  unfold codeUnits
  split
  · have hsingle : ¬ (0xD800 ≤ c.toNat ∧ c.toNat < 0xE000) := by omega
    cases units with
    | nil => simp [ofUnits, hsingle, Char.ofNat_toNat]
    | cons v units =>
      have hpair : ¬ (0xD800 ≤ c.toNat ∧ c.toNat < 0xDC00 ∧ 0xDC00 ≤ v ∧ v < 0xE000) := by omega
      simp only [List.singleton_append, ofUnits, if_neg hsingle, if_neg hpair, Char.ofNat_toNat]
  · set high := (c.toNat - 0x10000) / 0x400
    set low := (c.toNat - 0x10000) % 0x400
    have hpair : 0xD800 ≤ 0xD800 + high ∧ 0xD800 + high < 0xDC00 ∧
        0xDC00 ≤ 0xDC00 + low ∧ 0xDC00 + low < 0xE000 := by omega
    have hsum : 0x10000 + (0xD800 + high - 0xD800) * 0x400 + (0xDC00 + low - 0xDC00) = c.toNat := by
      omega
    simp only [List.cons_append, List.nil_append, ofUnits, if_pos hpair, hsum, Char.ofNat_toNat]

lemma ofUnits_flatMap_codeUnits (chars : List Char) : ofUnits (chars.flatMap codeUnits) = chars := by
  induction chars with
  | nil => rfl
  | cons c chars ih => rw [List.flatMap_cons, ofUnits_codeUnits_append, ih]

/-- Code units are kept, last first, while escapes follow each other. -/
lemma readString_units {digits : List (List Char)} {units : List Nat}
    (h : List.Forall₂ IsCodeUnit digits units) (pending : List Nat) (text : List Char) :
    readString pending (digits.flatMap (['\\', 'u'] ++ ·) ++ text) =
      readString (units.reverse ++ pending) text := by
  induction h generalizing pending with
  | nil => rfl
  | @cons _ unit _ _ hunit _ ih =>
    obtain ⟨hlength, hvalue⟩ := hunit
    obtain ⟨a, b, c, d, rfl⟩ := List.length_eq_four.1 hlength
    simpa [readString, hvalue] using ih (unit :: pending)

lemma escaped?_of_mem_letterEscapes {letter c : Char} (h : (letter, c) ∈ letterEscapes) :
    letter ≠ 'u' ∧ escaped? letter = some c := by
  have hall : ∀ escape ∈ letterEscapes, escape.1 ≠ 'u' ∧ escaped? escape.1 = some escape.2 := by
    decide
  exact hall (letter, c) h

/-- A string is read as the characters that it spells, behind those whose units are pending. -/
lemma readString_of_spells {text value : List Char} (h : Spells text value) (chars rest : List Char) :
    readString (chars.flatMap codeUnits).reverse (text ++ '"' :: rest)
      = some (chars ++ value, rest) := by
  induction h generalizing chars with
  | nil => simp [readString, ofUnits_flatMap_codeUnits]
  | @plain c text value hquote hbackslash hcontrol _ ih =>
    have ih : readString [] (text ++ '"' :: rest) = some (value, rest) := ih []
    simp [readString, hquote, hbackslash, hcontrol, ih, ofUnits_flatMap_codeUnits]
  | @letter letter c text value hmem _ ih =>
    have ih : readString [] (text ++ '"' :: rest) = some (value, rest) := ih []
    simp [readString, escaped?_of_mem_letterEscapes hmem, ih, ofUnits_flatMap_codeUnits]
  | @units c digits text value hdigits _ ih =>
    -- the character joins those whose units are pending
    have ih := ih (chars ++ [c])
    rw [List.append_assoc, readString_units hdigits]
    simpa using ih

/-! ### Numbers -/

/-- A number that stands before the text ends there. -/
def EndsNumber (text : List Char) : Prop :=
  ∀ c ∈ text.head?, isDigit c = false ∧ c ≠ '.' ∧ c ≠ 'e' ∧ c ≠ 'E'

lemma endsNumber_nil : EndsNumber [] := by
  simp [EndsNumber]

lemma ne_of_isDigit {c d : Char} (hd : isDigit d = true) (hc : isDigit c = false) : d ≠ c := by
  rintro rfl
  exact absurd hd (by simp [hc])

/-- Digits end where something else begins. -/
lemma takeWhile_isDigit_append {digits rest : List Char} (hdigits : ∀ c ∈ digits, isDigit c = true)
    (hrest : ∀ c ∈ rest.head?, isDigit c = false) :
    (digits ++ rest).takeWhile isDigit = digits ∧ (digits ++ rest).dropWhile isDigit = rest := by
  rw [List.takeWhile_append_of_pos hdigits, List.dropWhile_append_of_pos hdigits]
  cases rest with
  | nil => simp
  | cons c rest =>
    have hc : isDigit c = false := hrest c rfl
    simp [hc]

lemma readPower?_of_power {text rest : List Char} {exponent : Option Int}
    (h : Power text exponent) (hrest : EndsNumber rest) :
    readPower? (text ++ rest) = some (exponent, rest) := by
  have hdigits : ∀ {digits : List Char} {n : Nat}, ofDigits? 10 digits = some n →
      (digits ++ rest).takeWhile isDigit = digits ∧ (digits ++ rest).dropWhile isDigit = rest :=
    fun hn => takeWhile_isDigit_append (isDigit_of_ofDigits? hn).2 fun c hc => (hrest c hc).1
  cases h with
  | none =>
    cases rest with
    | nil => rfl
    | cons c rest =>
      obtain ⟨-, -, he, hE⟩ := hrest c rfl
      simp [readPower?, he, hE]
  | @unsigned mark digits n hmark hn =>
    obtain ⟨hne, hall⟩ := isDigit_of_ofDigits? hn
    obtain ⟨d, digits, rfl⟩ := List.exists_cons_of_ne_nil hne
    have hsign : Decimal.splitSign (d :: digits ++ rest) = (false, d :: digits ++ rest) := by
      have hminus : d ≠ '-' := ne_of_isDigit (hall d (by simp)) rfl
      have hplus : d ≠ '+' := ne_of_isDigit (hall d (by simp)) rfl
      simp [Decimal.splitSign, hminus, hplus]
    rw [List.cons_append, readPower?, if_pos hmark, hsign]
    simp only [(hdigits hn).1, (hdigits hn).2, hn]
    rfl
  | @plus mark digits n hmark hn =>
    rw [List.cons_append, readPower?, if_pos hmark]
    simp [Decimal.splitSign, hdigits hn, hn]
  | @minus mark digits n hmark hn =>
    rw [List.cons_append, readPower?, if_pos hmark]
    simp [Decimal.splitSign, hdigits hn, hn]

lemma readFraction?_of_fraction {text digits rest : List Char} (h : Fraction text digits)
    (hrest : ∀ c ∈ rest.head?, isDigit c = false ∧ c ≠ '.') :
    readFraction? (text ++ rest) = some (digits, rest) := by
  cases h with
  | none =>
    cases rest with
    | nil => rfl
    | cons c rest => simp [readFraction?, (hrest c rfl).2]
  | some hne hdigits =>
    have hsplit := takeWhile_isDigit_append hdigits fun c hc => (hrest c hc).1
    simp [readFraction?, hsplit, hne]

/-- Neither digits nor a fraction go on where an exponent or the end of the number is. -/
lemma Power.head_append {text rest : List Char} {exponent : Option Int} (h : Power text exponent)
    (hrest : EndsNumber rest) : ∀ c ∈ (text ++ rest).head?, isDigit c = false ∧ c ≠ '.' := by
  have hmark : ∀ {mark : Char} {text : List Char}, mark = 'e' ∨ mark = 'E' →
      ∀ c ∈ (mark :: text).head?, isDigit c = false ∧ c ≠ '.' := by
    rintro mark text (rfl | rfl) c ⟨⟩
    · decide
    · decide
  cases h with
  | none => exact fun c hc => ⟨(hrest c hc).1, (hrest c hc).2.1⟩
  | unsigned h _ => exact hmark h
  | plus h _ => exact hmark h
  | minus h _ => exact hmark h

lemma Fraction.head_append {text digits rest : List Char} (h : Fraction text digits)
    (hrest : ∀ c ∈ rest.head?, isDigit c = false) :
    ∀ c ∈ (text ++ rest).head?, isDigit c = false := by
  cases h with
  | none => exact hrest
  | some _ _ =>
    rintro c ⟨⟩
    decide

/-- The parts of a number are read one after the other. -/
lemma readNumber?_append (negative : Bool) {whole fraction digits power rest : List Char} {n : Nat}
    {exponent : Option Int} (hwhole : IsWhole whole n) (hfraction : Fraction fraction digits)
    (hpower : Power power exponent) (hrest : EndsNumber rest) :
    readNumber? (sign negative ++ (whole ++ (fraction ++ (power ++ rest)))) =
      if digits.isEmpty && exponent.isNone then
        some (.int (if negative then -n else n), rest)
      else (ofDigits? 10 (whole ++ digits)).map fun m =>
        (.real ⟨negative, m, exponent.getD 0 - digits.length⟩, rest) := by
  obtain ⟨hne, hall⟩ := isDigit_of_ofDigits? hwhole.value_eq
  have hsign : ((sign negative ++ (whole ++ (fraction ++ (power ++ rest)))).head? == some '-')
      = negative := by
    cases negative with
    | true => rfl
    | false =>
      obtain ⟨d, rest', rfl⟩ := List.exists_cons_of_ne_nil hne
      have hminus : d ≠ '-' := ne_of_isDigit (hall d (by simp)) rfl
      simp [sign, hminus]
  have hbody : (if negative then (sign negative ++ (whole ++ (fraction ++ (power ++ rest)))).tail
      else sign negative ++ (whole ++ (fraction ++ (power ++ rest))))
        = whole ++ (fraction ++ (power ++ rest)) := by
    cases negative <;> rfl
  have hpowerHead := hpower.head_append hrest
  have hdigits := takeWhile_isDigit_append hall
    (hfraction.head_append fun c hc => (hpowerHead c hc).1)
  have hzero : isWhole whole = true := by
    by_cases hhead : whole.head? = some '0'
    · simp [isWhole, hwhole.no_zero hhead]
    · simp [isWhole, hhead]
  simp only [readNumber?, hsign, hbody, hdigits.1, hdigits.2, hwhole.value_eq, hzero,
    readFraction?_of_fraction hfraction hpowerHead, readPower?_of_power hpower hrest,
    Option.bind_eq_bind, Option.bind_some, if_true, Option.pure_def]
  split
  · rfl
  · rw [Option.map_eq_bind]
    rfl

lemma readNumber?_of_number {text rest : List Char} {value : Json} (h : Number text value)
    (hrest : EndsNumber rest) : readNumber? (text ++ rest) = some (value, rest) := by
  cases h with
  | @int negative whole n hwhole =>
    have hread := readNumber?_append negative hwhole .none .none hrest
    simpa using hread
  | @real negative whole fraction digits power n m exponent hwhole hfraction hpower hne hdigits =>
    have hparts : (digits.isEmpty && exponent.isNone) = false := by
      cases hfraction with
      | none =>
        cases hpower with
        | none => exact absurd rfl hne
        | unsigned => rfl
        | plus => rfl
        | minus => rfl
      | some hsome _ => simp [hsome]
    have hread := readNumber?_append negative hwhole hfraction hpower hrest
    rw [hparts, hdigits] at hread
    simpa using hread

/-- A number begins with a minus or a digit. -/
lemma Number.exists_cons {text : List Char} {value : Json} (h : Number text value) :
    ∃ c rest, text = c :: rest ∧ (c = '-' ∨ isDigit c = true) := by
  have hparts : ∀ (negative : Bool) {whole : List Char} {n : Nat} (rest : List Char),
      IsWhole whole n →
        ∃ c rest', sign negative ++ (whole ++ rest) = c :: rest' ∧ (c = '-' ∨ isDigit c = true) := by
    intro negative whole n rest hwhole
    cases negative with
    | true => exact ⟨'-', whole ++ rest, rfl, Or.inl rfl⟩
    | false =>
      obtain ⟨hne, hall⟩ := isDigit_of_ofDigits? hwhole.value_eq
      obtain ⟨d, digits, rfl⟩ := List.exists_cons_of_ne_nil hne
      exact ⟨d, digits ++ rest, rfl, Or.inr (hall d (by simp))⟩
  cases h with
  | @int negative whole n hwhole => simpa using hparts negative [] hwhole
  | real hwhole _ _ _ _ => exact hparts _ _ hwhole

/-! ### Values -/

lemma readValue_quote (depth : Nat) (text : List Char) :
    readValue (depth + 1) ('"' :: text) =
      (readString [] text).map fun (s, left) => (.str (String.ofList s), left) := rfl

lemma readValue_bracket (depth : Nat) (text : List Char) :
    readValue (depth + 1) ('[' :: text) =
      match expect? ']' (skipSpace text) with
      | some left => some (.arr [], left)
      | none => (readItems depth text).map fun (items, left) => (.arr items, left) := rfl

lemma readValue_brace (depth : Nat) (text : List Char) :
    readValue (depth + 1) ('\x7b' :: text) =
      match expect? '\x7d' (skipSpace text) with
      | some left => some (.obj [], left)
      | none => (readFields depth text).map fun (fields, left) => (.obj fields, left) := rfl

/-- What a number begins with is neither white space nor a mark of another value. -/
lemma ne_of_begins {c : Char} (hc : c = '-' ∨ isDigit c = true) :
    ∀ d ∈ [' ', '\t', '\n', '\r', '"', '[', ']', '\x7b', 'n', 't', 'f'], c ≠ d := by
  have hmarks : ∀ d ∈ [' ', '\t', '\n', '\r', '"', '[', ']', '\x7b', 'n', 't', 'f'],
      '-' ≠ d ∧ isDigit d = false := by
    simp [isDigit]
  intro d hd
  rcases hc with rfl | hc
  · exact (hmarks d hd).1
  · exact ne_of_isDigit hc (hmarks d hd).2

lemma skipSpace_of_begins {c : Char} (hc : c = '-' ∨ isDigit c = true) (text : List Char) :
    skipSpace (c :: text) = c :: text := by
  have hne := ne_of_begins hc
  simp only [List.forall_mem_cons] at hne
  simp [skipSpace, hne]

lemma readValue_of_begins {c : Char} (hc : c = '-' ∨ isDigit c = true) (depth : Nat)
    (text : List Char) : readValue (depth + 1) (c :: text) = readNumber? (c :: text) := by
  have hne := ne_of_begins hc
  simp only [List.forall_mem_cons] at hne
  simp [readValue, skipSpace_of_begins hc, hne]

/-- The first character of a value is not white space and does not close an array. -/
lemma Denotes.exists_cons {text : List Char} {value : Json} (h : Denotes text value) :
    ∃ c rest, text = c :: rest ∧ (∀ rest, skipSpace (c :: rest) = c :: rest) ∧ c ≠ ']' := by
  cases h with
  | null => exact ⟨_, _, rfl, fun _ => rfl, by decide⟩
  | true => exact ⟨_, _, rfl, fun _ => rfl, by decide⟩
  | false => exact ⟨_, _, rfl, fun _ => rfl, by decide⟩
  | number h =>
    obtain ⟨c, rest, rfl, hc⟩ := h.exists_cons
    exact ⟨c, rest, rfl, skipSpace_of_begins hc, ne_of_begins hc ']' (by simp)⟩
  | str _ => exact ⟨_, _, rfl, fun _ => rfl, by decide⟩
  | emptyArr _ => exact ⟨_, _, rfl, fun _ => rfl, by decide⟩
  | arr _ => exact ⟨_, _, rfl, fun _ => rfl, by decide⟩
  | emptyObj _ => exact ⟨_, _, rfl, fun _ => rfl, by decide⟩
  | obj _ => exact ⟨_, _, rfl, fun _ => rfl, by decide⟩

lemma Elements.expect?_bracket {text : List Char} {items : List Json} (h : Elements text items)
    (rest : List Char) : expect? ']' (skipSpace (text ++ rest)) = none := by
  have hfirst : ∀ {before text : List Char} {item : Json} (rest : List Char), IsSpace before →
      Denotes text item → expect? ']' (skipSpace (before ++ (text ++ rest))) = none := by
    intro before text item rest hbefore htext
    obtain ⟨c, rest', rfl, hskip, hne⟩ := htext.exists_cons
    rw [skipSpace_append hbefore, List.cons_append, hskip, expect?, if_neg hne]
  cases h with
  | one hbefore htext _ =>
    simp only [List.append_assoc]
    exact hfirst _ hbefore htext
  | cons hbefore htext _ _ =>
    simp only [List.append_assoc]
    exact hfirst _ hbefore htext

lemma Members.expect?_brace {text : List Char} {fields : List (String × Json)}
    (h : Members text fields) (rest : List Char) :
    expect? '\x7d' (skipSpace (text ++ rest)) = none := by
  cases h with
  | one hbefore _ _ _ _ _ =>
    rw [List.append_assoc, skipSpace_append hbefore]
    rfl
  | cons hbefore _ _ _ _ _ _ =>
    rw [List.append_assoc, skipSpace_append hbefore]
    rfl

/-- Behind a value there is white space, a comma or a closing mark: a number ends there. -/
lemma endsNumber_append {space rest : List Char} (hspace : IsSpace space) (hrest : EndsNumber rest) :
    EndsNumber (space ++ rest) := by
  cases space with
  | nil => exact hrest
  | cons c space =>
    rintro d ⟨⟩
    rcases hspace c (by simp) with rfl | rfl | rfl | rfl <;> decide

lemma endsNumber_cons {c : Char} (hc : c = ',' ∨ c = ']' ∨ c = '\x7d') (rest : List Char) :
    EndsNumber (c :: rest) := by
  rintro d ⟨⟩
  rcases hc with rfl | rfl | rfl <;> decide

/-- The name of a field and its colon are read first. -/
lemma readFields_name {before spelling name behind : List Char} (hbefore : IsSpace before)
    (hname : Spells spelling name) (hbehind : IsSpace behind) (depth : Nat) (text : List Char) :
    readFields (depth + 1) (before ++ '"' :: (spelling ++ '"' :: (behind ++ ':' :: text))) = do
      let (value, rest) ← readValue depth text
      match expect? ',' (skipSpace rest) with
      | some rest =>
        let (fields, left) ← readFields depth rest
        return ((String.ofList name, value) :: fields, left)
      | none => return ([(String.ofList name, value)], ← expect? '\x7d' (skipSpace rest)) := by
  have hquote : skipSpace ('"' :: (spelling ++ '"' :: (behind ++ ':' :: text)))
      = '"' :: (spelling ++ '"' :: (behind ++ ':' :: text)) := rfl
  have hread : readString [] (spelling ++ '"' :: (behind ++ ':' :: text))
      = some (name, behind ++ ':' :: text) :=
    readString_of_spells hname [] _
  have hcolon : skipSpace (behind ++ ':' :: text) = ':' :: text := by
    rw [skipSpace_append hbehind]
    rfl
  rw [readFields, skipSpace_append hbefore, hquote]
  show (readString [] (spelling ++ '"' :: (behind ++ ':' :: text))).bind _ = _
  rw [hread]
  show (expect? ':' (skipSpace (behind ++ ':' :: text))).bind _ = _
  rw [hcolon]
  rfl

mutual

/-- A value is read as what it denotes, if the bound on the depth is at least its length. -/
theorem readValue_of_denotes {text : List Char} {value : Json} (h : Denotes text value)
    {depth : Nat} (hdepth : text.length ≤ depth) {rest : List Char} (hrest : EndsNumber rest) :
    readValue depth (text ++ rest) = some (value, rest) := by
  obtain ⟨depth, rfl⟩ : ∃ d, depth = d + 1 := by
    obtain ⟨c, tail, rfl, -⟩ := h.exists_cons
    exact Nat.exists_eq_add_one_of_ne_zero (Nat.ne_zero_of_lt hdepth)
  cases h with
  | null => rfl
  | true => rfl
  | false => rfl
  | number h =>
    have hread := readNumber?_of_number h hrest
    obtain ⟨c, tail, rfl, hc⟩ := h.exists_cons
    rw [List.cons_append] at hread ⊢
    rw [readValue_of_begins hc, hread]
  | @str text value h =>
    have hread : readString [] (text ++ '"' :: rest) = some (value, rest) :=
      readString_of_spells h [] rest
    simp [readValue_quote, hread]
  | @emptyArr space hspace =>
    have hclose : expect? ']' (skipSpace (space ++ ']' :: rest)) = some rest := by
      rw [skipSpace_append hspace]
      rfl
    simp [readValue_bracket, hclose]
  | @arr text items h =>
    have hread : readItems depth (text ++ ']' :: rest) = some (items, rest) :=
      readItems_of_elements h (by simp at hdepth; omega) rest
    simp [readValue_bracket, h.expect?_bracket, hread]
  | @emptyObj space hspace =>
    have hclose : expect? '\x7d' (skipSpace (space ++ '\x7d' :: rest)) = some rest := by
      rw [skipSpace_append hspace]
      rfl
    simp [readValue_brace, hclose]
  | @obj text fields h =>
    have hread : readFields depth (text ++ '\x7d' :: rest) = some (fields, rest) :=
      readFields_of_members h (by simp at hdepth; omega) rest
    simp [readValue_brace, h.expect?_brace, hread]

theorem readItems_of_elements {text : List Char} {items : List Json} (h : Elements text items)
    {depth : Nat} (hdepth : text.length < depth) (rest : List Char) :
    readItems depth (text ++ ']' :: rest) = some (items, rest) := by
  obtain ⟨depth, rfl⟩ := Nat.exists_eq_add_one_of_ne_zero (Nat.ne_zero_of_lt hdepth)
  cases h with
  | @one before text after item hbefore htext hafter =>
    have hread : readValue depth (text ++ (after ++ ']' :: rest))
        = some (item, after ++ ']' :: rest) :=
      readValue_of_denotes htext (by simp at hdepth; omega)
        (endsNumber_append hafter (endsNumber_cons (by simp) rest))
    have hskip : skipSpace (after ++ ']' :: rest) = ']' :: rest := by
      rw [skipSpace_append hafter]
      rfl
    simp [readItems, readValue_append hbefore, hread, hskip, expect?]
  | @cons before text after texts item items hbefore htext hafter hitems =>
    have hread : readValue depth (text ++ (after ++ ',' :: (texts ++ ']' :: rest)))
        = some (item, after ++ ',' :: (texts ++ ']' :: rest)) :=
      readValue_of_denotes htext (by simp at hdepth; omega)
        (endsNumber_append hafter (endsNumber_cons (by simp) _))
    have hskip : skipSpace (after ++ ',' :: (texts ++ ']' :: rest))
        = ',' :: (texts ++ ']' :: rest) := by
      rw [skipSpace_append hafter]
      rfl
    have hrest : readItems depth (texts ++ ']' :: rest) = some (items, rest) :=
      readItems_of_elements hitems (by simp at hdepth; omega) rest
    simp [readItems, readValue_append hbefore, hread, hskip, expect?, hrest]

theorem readFields_of_members {text : List Char} {fields : List (String × Json)}
    (h : Members text fields) {depth : Nat} (hdepth : text.length < depth) (rest : List Char) :
    readFields depth (text ++ '\x7d' :: rest) = some (fields, rest) := by
  obtain ⟨depth, rfl⟩ := Nat.exists_eq_add_one_of_ne_zero (Nat.ne_zero_of_lt hdepth)
  cases h with
  | @one before spelling name behind front text after value hbefore hname hbehind hfront htext
      hafter =>
    have hread : readValue depth (text ++ (after ++ '\x7d' :: rest))
        = some (value, after ++ '\x7d' :: rest) :=
      readValue_of_denotes htext (by simp at hdepth; omega)
        (endsNumber_append hafter (endsNumber_cons (by simp) rest))
    have hskip : skipSpace (after ++ '\x7d' :: rest) = '\x7d' :: rest := by
      rw [skipSpace_append hafter]
      rfl
    have htexts : before ++ '"' :: (spelling ++ '"' :: (behind ++ ':' :: (front ++ (text ++ after))))
          ++ '\x7d' :: rest
        = before ++ '"' :: (spelling ++ '"' :: (behind ++ ':' ::
            (front ++ (text ++ (after ++ '\x7d' :: rest))))) := by
      simp
    rw [htexts, readFields_name hbefore hname hbehind, readValue_append hfront, hread]
    simp [hskip, expect?]
  | @cons before spelling name behind front text after texts value fields hbefore hname hbehind
      hfront htext hafter hfields =>
    have hread : readValue depth (text ++ (after ++ ',' :: (texts ++ '\x7d' :: rest)))
        = some (value, after ++ ',' :: (texts ++ '\x7d' :: rest)) :=
      readValue_of_denotes htext (by simp at hdepth; omega)
        (endsNumber_append hafter (endsNumber_cons (by simp) _))
    have hskip : skipSpace (after ++ ',' :: (texts ++ '\x7d' :: rest))
        = ',' :: (texts ++ '\x7d' :: rest) := by
      rw [skipSpace_append hafter]
      rfl
    have hrest : readFields depth (texts ++ '\x7d' :: rest) = some (fields, rest) :=
      readFields_of_members hfields (by simp at hdepth; omega) rest
    have htexts : before ++ '"' :: (spelling ++ '"' :: (behind ++ ':' ::
          (front ++ (text ++ (after ++ ',' :: texts))))) ++ '\x7d' :: rest
        = before ++ '"' :: (spelling ++ '"' :: (behind ++ ':' ::
            (front ++ (text ++ (after ++ ',' :: (texts ++ '\x7d' :: rest)))))) := by
      simp
    rw [htexts, readFields_name hbefore hname hbehind, readValue_append hfront, hread]
    simp [hskip, expect?, hrest]

end

/-- **Every JSON text is read as the value that it denotes.**  White space may stand around it. -/
theorem ofText?_of_denotes {before text after : List Char} {value : Json} (hbefore : IsSpace before)
    (h : Denotes text value) (hafter : IsSpace after) :
    ofText? (before ++ (text ++ after)) = some value := by
  have hread : readValue (2 * (before ++ (text ++ after)).length + 2) (text ++ after)
      = some (value, after) :=
    readValue_of_denotes h (by simp; omega) (by simpa using endsNumber_append hafter endsNumber_nil)
  rw [ofText?, readValue_append hbefore, hread]
  simp [skipSpace_eq_nil hafter]

/-- A text denotes one value at most. -/
lemma Denotes.unique {text : List Char} {a b : Json} (ha : Denotes text a) (hb : Denotes text b) :
    a = b := by
  have hread := ofText?_of_denotes isSpace_nil ha isSpace_nil
  rw [ofText?_of_denotes isSpace_nil hb isSpace_nil] at hread
  exact (Option.some.inj hread).symm

end UnitCheck.Json
