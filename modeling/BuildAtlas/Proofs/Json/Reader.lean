import BuildAtlas.Json.Codec

/-!
# BuildAtlas.Proofs.Json.Reader

Laws of readers on a text whose front is known.

A reader is followed one operation at a time: `bind_ok` goes on with what the first operation
leaves. `SkipsBlanks` is said of the readers that are not disturbed by blanks in front, and
`iterate_inl` and `iterate_inr` unroll a loop by one step, with no bound on the number of steps left
to deal with.
-/

namespace BuildAtlas.Json.Reader

variable {α β σ : Type}

/-! ### Sequences -/

theorem bind_ok {x : Reader α} {f : α → Reader β} {a : α} {cs rest : List Char}
    (h : x cs = .ok (a, rest)) : (x >>= f) cs = f a rest := by
  show (x cs >>= fun p => f p.1 p.2) = f a rest
  rw [h]
  rfl

theorem eq_ok_of_bind {x : Reader α} {f : α → Reader β} {cs : List Char} {result : β × List Char}
    (h : (x >>= f) cs = .ok result) : ∃ a rest, x cs = .ok (a, rest) ∧ f a rest = .ok result := by
  change (x cs >>= fun p => f p.1 p.2) = .ok result at h
  cases hx : x cs with
  | error fault =>
      rw [hx] at h
      cases h
  | ok p =>
      rw [hx] at h
      exact ⟨p.1, p.2, rfl, h⟩

theorem map_ok {x : Reader α} {f : α → β} {a : α} {cs rest : List Char}
    (h : x cs = .ok (a, rest)) : (f <$> x) cs = .ok (f a, rest) := by
  show (x cs >>= fun p => pure (f p.1, p.2)) = .ok (f a, rest)
  rw [h]
  rfl

theorem bind_congr_front {x : Reader α} {cs ds : List Char} (h : x cs = x ds)
    (f : α → Reader β) : (x >>= f) cs = (x >>= f) ds := by
  show (x cs >>= fun p => f p.1 p.2) = (x ds >>= fun p => f p.1 p.2)
  rw [h]

/-! ### Blanks in front -/

/-- Blanks in front of a text do not change what the reader makes of it. -/
def SkipsBlanks (x : Reader α) : Prop :=
  ∀ (bs cs : List Char), (∀ b ∈ bs, isBlank b = true) → x (bs ++ cs) = x cs

theorem SkipsBlanks.bind {x : Reader α} (h : SkipsBlanks x) (f : α → Reader β) :
    SkipsBlanks (x >>= f) :=
  fun bs cs hbs => bind_congr_front (h bs cs hbs) f

theorem SkipsBlanks.map {x : Reader α} (h : SkipsBlanks x) (f : α → β) : SkipsBlanks (f <$> x) := by
  intro bs cs hbs
  show (x (bs ++ cs) >>= fun p => pure (f p.1, p.2)) = (x cs >>= fun p => pure (f p.1, p.2))
  rw [h bs cs hbs]

theorem skipsBlanks_blanks : SkipsBlanks blanks := by
  intro bs cs hbs
  rw [blanks, blanks, List.dropWhile_append_of_pos hbs]

theorem skipsBlanks_peekToken? : SkipsBlanks peekToken? :=
  skipsBlanks_blanks.bind _

/-! ### Single characters -/

theorem blanks_cons {c : Char} (hc : isBlank c = false) (cs : List Char) :
    blanks (c :: cs) = .ok ((), c :: cs) := by
  rw [blanks, List.dropWhile_cons_of_neg (by simp [hc])]

theorem peekToken?_cons {c : Char} (hc : isBlank c = false) (cs : List Char) :
    peekToken? (c :: cs) = .ok (some c, c :: cs) := by
  rw [peekToken?, bind_ok (blanks_cons hc cs)]
  rfl

theorem token_cons {c : Char} (hc : isBlank c = false) (cs : List Char) :
    token c (c :: cs) = .ok ((), cs) := by
  have hnext : next (c :: cs) = .ok (c, cs) := rfl
  rw [token, bind_ok (blanks_cons hc cs), bind_ok hnext, if_pos (beq_self_eq_true c)]
  rfl

theorem word_singleton (c : Char) (rest : List Char) : word [c] (c :: rest) = .ok ((), rest) := by
  have hnext : next (c :: rest) = .ok (c, rest) := rfl
  rw [word, bind_ok hnext, if_pos (beq_self_eq_true c)]
  rfl

/-! ### Loops -/

/-- A loop that ends within some number of steps ends alike within any greater one. -/
theorem iterateAtMost_of_le {step : σ → Reader (σ ⊕ α)} {n m : Nat} (hnm : n ≤ m) {state : σ}
    {cs : List Char} {result : α × List Char}
    (h : iterateAtMost step n state cs = .ok result) :
    iterateAtMost step m state cs = .ok result := by
  -- on the smaller number: both loops take the same steps until it is used up
  induction n generalizing m state cs with
  | zero => cases h
  | succ n ih =>
      obtain ⟨m, rfl⟩ : ∃ k, m = k + 1 := ⟨m - 1, by omega⟩
      rw [iterateAtMost] at h ⊢
      obtain ⟨next, rest, hstep, hnext⟩ := eq_ok_of_bind h
      rw [bind_ok hstep]
      cases next with
      | inl state => exact ih (by omega) hnext
      | inr a => exact hnext

/-- One step of a loop that takes at least one character. -/
theorem iterate_inl {step : σ → Reader (σ ⊕ α)} {state state' : σ} {cs rest : List Char}
    {result : α × List Char} (hstep : step state cs = .ok (.inl state', rest))
    (hrest : rest.length < cs.length) (h : iterate step state' rest = .ok result) :
    iterate step state cs = .ok result := by
  rw [iterate, iterateAtMost, bind_ok hstep]
  exact iterateAtMost_of_le (by omega) h

/-- The last step of a loop. -/
theorem iterate_inr {step : σ → Reader (σ ⊕ α)} {state : σ} {cs rest : List Char} {a : α}
    (hstep : step state cs = .ok (.inr a, rest)) : iterate step state cs = .ok (a, rest) := by
  rw [iterate, iterateAtMost, bind_ok hstep]
  rfl

end BuildAtlas.Json.Reader
