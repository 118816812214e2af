import BuildAtlas.Proofs.Json.Reader
import Mathlib.Data.List.Basic

/-!
# BuildAtlas.Proofs.Json.Scalar

Every scalar that is written is read back: strings, truth values and whole numbers.

`quoted_escaped` undoes the escapes of a string character by character, and `numeral_decimal` takes
the digits of a number up to the character that ends it. A number is the only value whose end has to
be told by what follows, which is what `Delimited` is for.
-/

namespace BuildAtlas.Json

open Text (addDigit decimal digitsValue hexDigit hexValue?)

namespace Reader

/-! ### Strings -/

theorem hexValue?_hexDigit : ∀ n < 16, hexValue? (hexDigit n) = some n := by
  decide

theorem codeUnit_hexDigits {n : Nat} (hn : n < 0x100) (rest : List Char) :
    codeUnit ('0' :: '0' :: hexDigit (n / 16) :: hexDigit (n % 16) :: rest) = .ok (n, rest) := by
  have hzero : hexValue? '0' = some 0 := by decide
  have hhigh : hexValue? (hexDigit (n / 16)) = some (n / 16) := hexValue?_hexDigit _ (by omega)
  have hlow : hexValue? (hexDigit (n % 16)) = some (n % 16) := hexValue?_hexDigit _ (by omega)
  have hsum : ((0 * 16 + 0) * 16 + n / 16) * 16 + n % 16 = n := by omega
  simp only [codeUnit, hzero, hhigh, hlow, hsum]

/-- A code unit outside the surrogates is a character by itself. -/
theorem pairedChar_of_lt {unit : Nat} (h : unit < 0xD800) (cs : List Char) :
    pairedChar unit cs = .ok (Char.ofNat unit, cs) := by
  have htrailing : isTrailing unit = false := by
    simp only [isTrailing, Bool.and_eq_false_iff, decide_eq_false_iff_not]
    omega
  have hleading : isLeading unit = false := by
    simp only [isLeading, Bool.and_eq_false_iff, decide_eq_false_iff_not]
    omega
  rw [pairedChar, htrailing, hleading]
  rfl

theorem escape_unit {n : Nat} (hn : n < 0x20) (rest : List Char) :
    escape .kept ('u' :: '0' :: '0' :: hexDigit (n / 16) :: hexDigit (n % 16) :: rest)
      = .ok (Char.ofNat n, rest) := by
  show (codeUnit >>= pairedChar) _ = _
  rw [bind_ok (codeUnit_hexDigits (by omega) rest)]
  exact pairedChar_of_lt (by omega) rest

theorem quotedStep_plain {c : Char} (hquote : c ≠ '"') (hslash : c ≠ '\\') (h : 0x20 ≤ c.toNat)
    (written rest : List Char) :
    quotedStep .kept written (c :: rest) = .ok (.inl (c :: written), rest) := by
  have hnext : next (c :: rest) = .ok (c, rest) := rfl
  rw [quotedStep, bind_ok hnext]
  split
  · contradiction
  · contradiction
  · rw [if_neg (by omega)]
    rfl

theorem quotedStep_escape {c : Char} {cs rest : List Char} (h : escape .kept cs = .ok (c, rest))
    (written : List Char) :
    quotedStep .kept written ('\\' :: cs) = .ok (.inl (c :: written), rest) := by
  show (escape .kept >>= fun c => pure (Sum.inl (c :: written))) cs = _
  rw [bind_ok h]
  rfl

/-- A character is read back from the way it stands inside quotes. -/
theorem quotedStep_escapeChar (c : Char) (written rest : List Char) :
    quotedStep .kept written (escapeChar c ++ rest) = .ok (.inl (c :: written), rest) := by
  have hcode : ∀ {n}, c.toNat = n → c = Char.ofNat n := fun h => h ▸ (Char.ofNat_toNat c).symm
  rw [escapeChar]
  split
  · next h =>
      subst h
      exact quotedStep_escape rfl written
  · next hquote =>
      split
      · next h =>
          subst h
          exact quotedStep_escape rfl written
      · next hslash =>
          split
          · next h => exact quotedStep_plain hquote hslash h written rest
          · next h =>
              -- a control character: five have an escape of their own, the others are written
              -- with their code
              split
              · next hc => exact hcode hc ▸ quotedStep_escape rfl written
              · next hc => exact hcode hc ▸ quotedStep_escape rfl written
              · next hc => exact hcode hc ▸ quotedStep_escape rfl written
              · next hc => exact hcode hc ▸ quotedStep_escape rfl written
              · next hc => exact hcode hc ▸ quotedStep_escape rfl written
              · have hunit := escape_unit (Nat.lt_of_not_le h) rest
                rw [Char.ofNat_toNat] at hunit
                exact quotedStep_escape hunit written

theorem escapeChar_ne_nil (c : Char) : escapeChar c ≠ [] := by
  rw [escapeChar]
  split
  · exact List.cons_ne_nil _ _
  · split
    · exact List.cons_ne_nil _ _
    · split
      · exact List.cons_ne_nil _ _
      · split <;> exact List.cons_ne_nil _ _

theorem iterate_quotedStep (cs written rest : List Char) :
    iterate (quotedStep .kept) written (cs.flatMap escapeChar ++ '"' :: rest)
      = .ok (.ofList (written.reverse ++ cs), rest) := by
  induction cs generalizing written with
  | nil =>
      rw [List.append_nil]
      exact iterate_inr rfl
  | cons c cs ih =>
      have hlength := List.length_pos_iff.2 (escapeChar_ne_nil c)
      have hstep := quotedStep_escapeChar c written (cs.flatMap escapeChar ++ '"' :: rest)
      rw [List.flatMap_cons, List.append_assoc]
      refine iterate_inl hstep (by simp only [List.length_append]; omega) ?_
      rw [ih (c :: written), List.reverse_cons, List.append_assoc]
      rfl

theorem quote_append (s : String) (rest : List Char) :
    quote s ++ rest = '"' :: (s.toList.flatMap escapeChar ++ '"' :: rest) := by
  rw [quote, List.cons_append, List.append_assoc, List.singleton_append]

/-- A string is read back from its quoted text. -/
theorem quoted_escaped (s : String) (rest : List Char) :
    quoted .kept (s.toList.flatMap escapeChar ++ '"' :: rest) = .ok (s, rest) := by
  rw [quoted, iterate_quotedStep, List.reverse_nil, List.nil_append, String.ofList_toList]

/-! ### Whole numbers -/

/-- The text does not begin with a character that could belong to a number. -/
def Delimited (cs : List Char) : Prop :=
  ∀ c ∈ cs.head?, c.isDigit = false ∧ c ≠ '.' ∧ c ≠ 'e' ∧ c ≠ 'E'

theorem isDigit_of_mem_decimal {n : Nat} {c : Char} (h : c ∈ decimal n) : c.isDigit = true :=
  Nat.isDigit_of_mem_toDigits (by decide) (by decide) h

theorem exists_decimal_eq_cons (n : Nat) : ∃ d ds, decimal n = d :: ds ∧ d.isDigit = true := by
  obtain ⟨d, ds, hds⟩ : ∃ d ds, decimal n = d :: ds :=
    List.exists_cons_of_ne_nil Nat.toDigits_ne_nil
  exact ⟨d, ds, hds, isDigit_of_mem_decimal (n := n) (hds ▸ List.mem_cons_self ..)⟩

theorem isBlank_of_isDigit {c : Char} (h : c.isDigit = true) : isBlank c = false := by
  rw [← Bool.not_eq_true]
  intro hblank
  simp only [isBlank, Bool.or_eq_true, beq_iff_eq] at hblank
  rcases hblank with ((rfl | rfl) | rfl) | rfl <;> exact absurd h (by decide)

/-- Only zero is written with a zero in front. -/
theorem head?_decimal_ne {n : Nat} (hn : 0 < n) : (decimal n).head? ≠ some '0' := by
  induction n using Nat.strongRecOn with
  | ind n ih =>
      rw [decimal, Nat.toDigits_eq_if (by decide)]
      by_cases h : n < 10
      · have hdigit : ∀ k < 10, 0 < k → Nat.digitChar k ≠ '0' := by decide
        rw [if_pos h, List.head?_singleton, Ne, Option.some.injEq]
        exact hdigit n h hn
      · -- the first digit is that of the number without its last digit
        rw [if_neg h, List.head?_append_of_ne_nil _ Nat.toDigits_ne_nil]
        exact ih (n / 10) (by omega) (by omega)

theorem length_decimal_of_head? {n : Nat} (h : (decimal n).head? = some '0') :
    (decimal n).length = 1 := by
  obtain rfl | hn := Nat.eq_zero_or_pos n
  · rfl
  · exact absurd h (head?_decimal_ne hn)

theorem digitsValue_decimal (n : Nat) : digitsValue (decimal n) = n := by
  have hstep : addDigit = fun n c => 10 * n + (c.toNat - '0'.toNat) := by
    funext n c
    rw [addDigit, Nat.mul_comm]
    rfl
  rw [digitsValue, hstep]
  exact Nat.ofDigitChars_ten_toDigits

theorem digits_append {ds rest : List Char} (hne : ds ≠ []) (hds : ∀ c ∈ ds, c.isDigit = true)
    (hrest : Delimited rest) : digits .kept (ds ++ rest) = .ok (ds, rest) := by
  have htake : (ds ++ rest).takeWhile Char.isDigit = ds := by
    rw [List.takeWhile_append_of_pos hds]
    cases rest with
    | nil => simp
    | cons c cs => simp [(hrest c rfl).1]
  have hdrop : (ds ++ rest).dropWhile Char.isDigit = rest := by
    rw [List.dropWhile_append_of_pos hds]
    cases rest with
    | nil => rfl
    | cons c cs => rw [List.dropWhile_cons_of_neg (by simp [(hrest c rfl).1])]
  obtain ⟨d, ds, rfl⟩ := List.exists_cons_of_ne_nil hne
  rw [List.cons_append] at htake hdrop ⊢
  rw [digits, if_pos (hds d (List.mem_cons_self ..)), htake, hdrop]

theorem oneOf?_eq_none {chars cs : List Char} (h : ∀ c ∈ cs.head?, c ∉ chars) :
    oneOf? chars cs = .ok (none, cs) := by
  cases cs with
  | nil => rfl
  | cons c cs => rw [oneOf?, if_neg (by simpa using h c rfl)]

/-- The number of whole digits alone. -/
def Numeral.ofDigits (ds : List Char) : Numeral where
  negative := false
  whole := ds
  fraction := []
  exponent := 0

theorem numeral_decimal (n : Nat) {rest : List Char} (hrest : Delimited rest) :
    numeral .kept (decimal n ++ rest) = .ok (.ofDigits (decimal n), rest) := by
  have hne : decimal n ≠ [] := Nat.toDigits_ne_nil
  have hsign : oneOf? ['-'] (decimal n ++ rest) = .ok (none, decimal n ++ rest) := by
    refine oneOf?_eq_none fun c hc => ?_
    rw [List.head?_append_of_ne_nil _ hne] at hc
    have hdigit := isDigit_of_mem_decimal (List.mem_of_mem_head? hc)
    rintro hmem
    obtain rfl := List.mem_singleton.1 hmem
    exact absurd hdigit (by decide)
  have hzero : ((decimal n).head? == some '0' && (decimal n).length != 1) = false := by
    by_cases h : (decimal n).head? = some '0'
    · simp [length_decimal_of_head? h]
    · simp [h]
  have hpoint : oneOf? ['.'] rest = .ok (none, rest) :=
    oneOf?_eq_none fun c hc => by simpa using (hrest c hc).2.1
  have hexponent : oneOf? ['e', 'E'] rest = .ok (none, rest) :=
    oneOf?_eq_none fun c hc => by simpa using (hrest c hc).2.2
  -- neither a sign nor a point nor an exponent: the digits are all there is
  rw [numeral, bind_ok hsign, bind_ok (digits_append hne (fun _ => isDigit_of_mem_decimal) hrest)]
  simp only [hzero]
  rw [if_neg Bool.false_ne_true, bind_ok hpoint]
  simp only [Option.isSome_none, Bool.false_eq_true, if_false, pure_bind]
  rw [bind_ok hexponent]
  rfl

theorem le_foldl_addDigit (ds : List Char) (n : Nat) : n ≤ ds.foldl addDigit n := by
  induction ds generalizing n with
  | nil => exact Nat.le_refl n
  | cons d ds ih =>
      have hd : n ≤ addDigit n d := by
        rw [addDigit]
        omega
      exact Nat.le_trans hd (ih (addDigit n d))

/-- Digits whose number fits into 64 bits are all taken. -/
theorem leadingWord_of_le {ds : List Char} {n : Nat} (h : ds.foldl addDigit n ≤ maxWord) :
    (leadingWord n ds).2 = [] := by
  induction ds generalizing n with
  | nil => rfl
  | cons d ds ih =>
      rw [List.foldl_cons] at h
      rw [leadingWord, if_pos (Nat.le_trans (le_foldl_addDigit ds _) h)]
      exact ih h

theorem isHuge_ofDigits {n : Nat} (hn : n ≤ maxWord) :
    (Numeral.ofDigits (decimal n)).isHuge = false := by
  have hplaces : (leadingWord 0 (decimal n)).2 = [] := by
    refine leadingWord_of_le ?_
    have hvalue := digitsValue_decimal n
    rw [digitsValue] at hvalue
    rwa [hvalue]
  simp only [Numeral.isHuge, Numeral.ofDigits, hplaces, List.isEmpty_nil, beq_self_eq_true,
    Bool.and_self, Bool.not_true, Bool.false_and]

end Reader

namespace Codec

open Reader

/-! ### Scalars -/

theorem skipsBlanks_scalar? : SkipsBlanks scalar? :=
  skipsBlanks_peekToken?.bind _

theorem scalar?_quote (s : String) (rest : List Char) :
    scalar? (quote s ++ rest) = .ok (some (.string s), rest) := by
  rw [quote_append, scalar?, bind_ok (peekToken?_cons (by decide) _)]
  show (word ['"'] >>= fun _ => quoted .kept >>= fun s => pure (some (Value.string s))) _ = _
  rw [bind_ok (word_singleton '"' _), bind_ok (quoted_escaped s rest)]
  rfl

theorem scalar?_bool (b : Bool) (layout : Layout) (level : Nat) (rest : List Char) :
    scalar? ((Value.bool b).print layout level ++ rest) = .ok (some (.bool b), rest) := by
  cases b <;> rfl

/-- An opening bracket is left to be taken. -/
theorem scalar?_open {c : Char} (hc : c = '[' ∨ c = '{') (rest : List Char) :
    scalar? (c :: rest) = .ok (none, c :: rest) := by
  rcases hc with rfl | rfl <;> rfl

theorem scalar?_decimal {n : Nat} (hn : n ≤ maxWord) {rest : List Char} (hrest : Delimited rest) :
    scalar? (decimal n ++ rest) = .ok (some (.number (.ofList (decimal n))), rest) := by
  obtain ⟨d, ds, hds, hdigit⟩ := exists_decimal_eq_cons n
  have hpeek : peekToken? (decimal n ++ rest) = .ok (some d, decimal n ++ rest) := by
    rw [hds]
    exact peekToken?_cons (isBlank_of_isDigit hdigit) _
  rw [scalar?, bind_ok hpeek]
  -- what else may begin a value is no digit
  generalize ho : some d = o
  split <;> cases ho
  · exact absurd hdigit (by decide)
  · exact absurd hdigit (by decide)
  · exact absurd hdigit (by decide)
  · exact absurd hdigit (by decide)
  · exact absurd hdigit (by decide)
  · exact absurd hdigit (by decide)
  · have hget (cs : List Char) : (get : Reader (List Char)) cs = .ok (cs, cs) := rfl
    rw [if_pos (by simp [hdigit]), bind_ok (hget _), bind_ok (numeral_decimal n hrest)]
    simp only [isHuge_ofDigits hn]
    have htake : (decimal n ++ rest).take ((decimal n ++ rest).length - rest.length)
        = decimal n := by
      rw [List.length_append, Nat.add_sub_cancel, List.take_left]
    rw [if_neg Bool.false_ne_true, bind_ok (hget _), htake]
    rfl

end Codec

end BuildAtlas.Json
