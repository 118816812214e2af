import BuildAtlas.Proofs.Json.Scalar
import BuildAtlas.Proofs.SortedMap

/-!
# BuildAtlas.Proofs.Json.Lawful

Codecs that read back what they write, in every layout and wherever the value stands.

`Codec.Lawful` is a law about the two directions of one codec. It is stated with a text that goes on
after the value, so that it passes from the codec of the items to the codec of the list, and from
that of the values to that of the map. The members of an object are followed by `Takes`: what one
member does to the state that is read, and from there what all of them do.
-/

namespace BuildAtlas.Json

open Reader

/-! ### What stands around a value -/

theorem delimited_nil : Delimited [] := by
  intro c hc
  cases hc

theorem delimited_cons {c : Char} (hc : c.isDigit = false ∧ c ≠ '.' ∧ c ≠ 'e' ∧ c ≠ 'E')
    (cs : List Char) : Delimited (c :: cs) := by
  intro d hd
  obtain rfl := Option.some.inj hd
  exact hc

theorem delimited_of_isBlank {cs : List Char} (h : ∀ c ∈ cs, isBlank c = true) : Delimited cs := by
  cases cs with
  | nil => exact delimited_nil
  | cons c cs =>
      refine delimited_cons ?_ cs
      have hblank := h c (List.mem_cons_self ..)
      simp only [isBlank, Bool.or_eq_true, beq_iff_eq] at hblank
      rcases hblank with ((rfl | rfl) | rfl) | rfl <;> decide

theorem isBlank_lineStart (layout : Layout) (level : Nat) :
    ∀ b ∈ layout.lineStart level, isBlank b = true := by
  intro b hb
  cases layout with
  | compact => cases hb
  | pretty =>
      rcases List.mem_cons.1 hb with rfl | hb
      · rfl
      · rw [List.eq_of_mem_replicate hb]
        rfl

theorem delimited_lineStart (layout : Layout) (level : Nat) {c : Char}
    (hc : c.isDigit = false ∧ c ≠ '.' ∧ c ≠ 'e' ∧ c ≠ 'E') (cs : List Char) :
    Delimited (layout.lineStart level ++ c :: cs) := by
  cases layout with
  | compact => exact delimited_cons hc cs
  | pretty => exact delimited_cons (by decide) _

theorem delimited_items (layout : Layout) (level : Nat) (items : List Value) (cs : List Char) :
    Delimited (printItems layout (level + 1) items ++ (layout.lineStart level ++ ']' :: cs)) := by
  cases items with
  | nil =>
      rw [printItems, List.nil_append]
      exact delimited_lineStart layout level (by decide) cs
  | cons item items =>
      rw [printItems]
      exact delimited_cons (by decide) _

theorem delimited_members (layout : Layout) (level : Nat) (members : List (String × Value))
    (cs : List Char) :
    Delimited (printMembers layout (level + 1) members
      ++ (layout.lineStart level ++ '}' :: cs)) := by
  cases members with
  | nil =>
      rw [printMembers, List.nil_append]
      exact delimited_lineStart layout level (by decide) cs
  | cons member members =>
      rw [printMembers]
      exact delimited_cons (by decide) _

namespace Codec

variable {α κ σ : Type}

/-- The codec reads back what it writes, whatever follows it: after a number, only that it ends has
to be seen. -/
structure Lawful (codec : Codec α) : Prop where
  /-- What is written does not look like a blank or like the end of an array. -/
  begins : ∀ a layout level, ∃ c cs,
    (codec.write a).print layout level = c :: cs ∧ isBlank c = false ∧ c ≠ ']'
  /-- Blanks may stand in front. -/
  skips : SkipsBlanks codec.read
  reads : ∀ a layout level {rest}, Delimited rest →
    codec.read ((codec.write a).print layout level ++ rest) = .ok (a, rest)

/-! ### Scalars -/

theorem print_string (s : String) (layout : Layout) (level : Nat) :
    (Value.string s).print layout level = quote s := by
  rw [Value.print]

@[simp] theorem string_lawful : string.Lawful where
  begins s layout level := ⟨'"', _, print_string s layout level, by decide, by decide⟩
  skips := skipsBlanks_scalar?.bind _
  reads s layout level rest _ := by
    show (scalar? >>= _) ((Value.string s).print layout level ++ rest) = _
    rw [print_string, bind_ok (scalar?_quote s rest)]
    rfl

@[simp] theorem bool_lawful : bool.Lawful where
  begins b layout level := by cases b <;> exact ⟨_, _, rfl, by decide, by decide⟩
  skips := skipsBlanks_scalar?.bind _
  reads b layout level rest _ := by
    show (scalar? >>= _) ((Value.bool b).print layout level ++ rest) = _
    rw [bind_ok (scalar?_bool b layout level rest)]
    rfl

theorem print_ofNat (n : Nat) (layout : Layout) (level : Nat) :
    (Value.ofNat n).print layout level = Text.decimal n := by
  rw [Value.ofNat, Value.print, String.toList_ofList]

@[simp] theorem word32_lawful : word32.Lawful where
  begins n layout level := by
    obtain ⟨d, ds, hds, hdigit⟩ := exists_decimal_eq_cons n.toNat
    refine ⟨d, ds, (print_ofNat n.toNat layout level).trans hds, isBlank_of_isDigit hdigit, ?_⟩
    rintro rfl
    exact absurd hdigit (by decide)
  skips := skipsBlanks_scalar?.bind _
  reads n layout level rest hrest := by
    have hlt : n.toNat < UInt32.size := n.toNat_lt_size
    have hword : n.toNat ≤ maxWord :=
      Nat.le_trans (Nat.le_of_lt hlt) (by decide)
    have hdigits : (Text.decimal n.toNat).all Char.isDigit = true :=
      List.all_eq_true.2 fun _ => isDigit_of_mem_decimal
    show (scalar? >>= _) ((Value.ofNat n.toNat).print layout level ++ rest) = _
    rw [print_ofNat, bind_ok (scalar?_decimal hword hrest)]
    simp only [String.toList_ofList, digitsValue_decimal, hdigits, hlt, decide_true, Bool.and_self,
      if_true, UInt32.ofNat_toNat]
    rfl

/-! ### Items and members -/

theorem skipsBlanks_more (close : Char) (isFirst : Bool) : SkipsBlanks (more close isFirst) :=
  skipsBlanks_peekToken?.bind _

theorem more_end {close : Char} (hclose : isBlank close = false) (isFirst : Bool)
    (layout : Layout) (level : Nat) (cs : List Char) :
    more close isFirst (layout.lineStart level ++ close :: cs) = .ok (false, close :: cs) := by
  rw [skipsBlanks_more _ _ _ _ (isBlank_lineStart layout level), more,
    bind_ok (peekToken?_cons hclose cs)]
  simp only [beq_self_eq_true, if_true]
  rfl

theorem more_first {close c : Char} (hc : isBlank c = false) (hne : c ≠ close)
    (layout : Layout) (level : Nat) (cs : List Char) :
    more close true (layout.lineStart level ++ c :: cs) = .ok (true, c :: cs) := by
  rw [skipsBlanks_more _ _ _ _ (isBlank_lineStart layout level), more,
    bind_ok (peekToken?_cons hc cs)]
  simp only [beq_eq_false_iff_ne.2 hne, if_true]
  rfl

theorem more_next {close c : Char} (hclose : close ≠ ',') (hc : isBlank c = false)
    (hne : c ≠ close) (layout : Layout) (level : Nat) (cs : List Char) :
    more close false (',' :: (layout.lineStart level ++ c :: cs)) = .ok (true, c :: cs) := by
  have hcomma : (',' == close) = false := beq_eq_false_iff_ne.2 hclose.symm
  have hnext : next (',' :: (layout.lineStart level ++ c :: cs))
      = .ok (',', layout.lineStart level ++ c :: cs) := rfl
  have hpeek : peekToken? (layout.lineStart level ++ c :: cs) = .ok (some c, c :: cs) := by
    rw [skipsBlanks_peekToken? _ _ (isBlank_lineStart layout level), peekToken?_cons hc cs]
  rw [more, bind_ok (peekToken?_cons (by decide) _)]
  simp only [hcomma, beq_self_eq_true, if_true]
  rw [if_neg Bool.false_ne_true, if_neg Bool.false_ne_true, bind_ok hnext, bind_ok hpeek]
  simp only [beq_eq_false_iff_ne.2 hne]
  rfl

/-! ### Lists -/

theorem opening_cons {c : Char} (hc : c = '[' ∨ c = '{') (rest : List Char) :
    opening c (c :: rest) = .ok ((), rest) := by
  have hnext : next (c :: rest) = .ok (c, rest) := rfl
  rw [opening, bind_ok (scalar?_open hc rest)]
  simp only []
  rw [bind_ok hnext, if_pos (beq_self_eq_true c)]
  rfl

theorem itemStep_of_more {item : Reader α} {done : List α} {cs cs' rest : List Char} {a : α}
    (hmore : more ']' done.isEmpty cs = .ok (true, cs')) (hitem : item cs' = .ok (a, rest)) :
    itemStep item done cs = .ok (.inl (a :: done), rest) := by
  rw [itemStep, bind_ok hmore, if_pos rfl, bind_ok hitem]
  rfl

theorem itemStep_end (item : Reader α) (done : List α) (layout : Layout) (level : Nat)
    (rest : List Char) :
    itemStep item done (layout.lineStart level ++ ']' :: rest)
      = .ok (.inr done.reverse, rest) := by
  rw [itemStep, bind_ok (more_end (by decide) _ layout level rest), if_neg Bool.false_ne_true,
    bind_ok (token_cons (by decide) rest)]
  rfl

/-- One item and then the others, where `front` is what stands before the item. -/
theorem iterate_item {codec : Codec α} (h : codec.Lawful) (layout : Layout) (level : Nat) (a : α)
    {done : List α} {front tail : List Char} {result : List α × List Char}
    (hmore : ∀ {c}, isBlank c = false → c ≠ ']' → ∀ cs,
      more ']' done.isEmpty (front ++ c :: cs) = .ok (true, c :: cs))
    (hdelimited : Delimited tail)
    (htail : iterate (itemStep codec.read) (a :: done) tail = .ok result) :
    iterate (itemStep codec.read) done
      (front ++ ((codec.write a).print layout level ++ tail)) = .ok result := by
  -- how the item begins decides that there is one, and that it is taken makes the text shorter
  obtain ⟨c, cs, hprint, hc, hne⟩ := h.begins a layout level
  have hitem := h.reads a layout level hdelimited
  rw [hprint, List.cons_append] at hitem ⊢
  refine iterate_inl (itemStep_of_more (hmore hc hne _) hitem) ?_ htail
  simp only [List.length_append, List.length_cons]
  omega

/-- The items after the first one, up to the closing bracket. -/
theorem iterate_itemStep {codec : Codec α} (h : codec.Lawful) (layout : Layout) (level : Nat)
    (as : List α) {done : List α} (hdone : done.isEmpty = false) (rest : List Char) :
    iterate (itemStep codec.read) done
        (printItems layout (level + 1) (as.map codec.write)
          ++ (layout.lineStart level ++ ']' :: rest))
      = .ok (done.reverse ++ as, rest) := by
  induction as generalizing done with
  | nil =>
      rw [List.map_nil, printItems, List.nil_append, List.append_nil]
      exact iterate_inr (itemStep_end codec.read done layout level rest)
  | cons a as ih =>
      have htail := @ih (a :: done) List.isEmpty_cons
      rw [List.reverse_cons, List.append_assoc, List.singleton_append] at htail
      rw [List.map_cons, printItems, List.cons_append, List.append_assoc, List.append_assoc]
      refine @iterate_item _ _ h layout (level + 1) a done (',' :: layout.lineStart (level + 1)) _ _
        (fun hc hne cs => ?_) (delimited_items layout level _ rest) htail
      rw [hdone]
      exact more_next (by decide) hc hne layout (level + 1) cs

theorem items_of_lawful {codec : Codec α} (h : codec.Lawful) (layout : Layout) (level : Nat)
    (as : List α) (rest : List Char) :
    ∃ body, (Value.array (as.map codec.write)).print layout level = '[' :: body ∧
      items codec.read (body ++ rest) = .ok (as, rest) := by
  cases as with
  | nil =>
      refine ⟨[']'], by rw [List.map_nil, Value.print], ?_⟩
      exact iterate_inr (itemStep_end codec.read [] .compact level rest)
  | cons a as =>
      refine ⟨_, by rw [List.map_cons, Value.print], ?_⟩
      simp only [items, List.append_assoc, List.singleton_append]
      exact iterate_item h layout (level + 1) a
        (fun hc hne cs => more_first hc hne layout (level + 1) cs)
        (delimited_items layout level _ rest)
        (iterate_itemStep h layout level as List.isEmpty_cons rest)

@[simp] theorem list_lawful {codec : Codec α} (h : codec.Lawful) : (list codec).Lawful where
  begins as layout level := by
    obtain ⟨body, hprint, _⟩ := items_of_lawful h layout level as []
    exact ⟨'[', body, hprint, by decide, by decide⟩
  skips := (skipsBlanks_scalar?.bind _).bind _
  reads as layout level rest _ := by
    obtain ⟨body, hprint, hread⟩ := items_of_lawful h layout level as rest
    show (opening '[' >>= fun _ => items codec.read)
      ((Value.array (as.map codec.write)).print layout level ++ rest) = _
    rw [hprint, List.cons_append, bind_ok (opening_cons (.inl rfl) _), hread]

/-! ### Objects -/

theorem memberKey_quote (key : String) (rest : List Char) :
    memberKey (quote key ++ rest) = .ok (key, rest) := by
  rw [quote_append, memberKey, bind_ok (peekToken?_cons (by decide) _)]
  show (word ['"'] >>= fun _ => quoted .kept) _ = _
  rw [bind_ok (word_singleton '"' _), quoted_escaped key rest]

theorem memberStep_of_more {member : σ → String → Reader σ} {state : Bool × σ} {key : String}
    {cs cs' rest : List Char} {next : σ}
    (hmore : more '}' state.1 cs = .ok (true, quote key ++ cs'))
    (hmember : member state.2 key cs' = .ok (next, rest)) :
    memberStep member state cs = .ok (.inl (false, next), rest) := by
  rw [memberStep, bind_ok hmore, if_pos rfl, bind_ok (memberKey_quote key cs'), bind_ok hmember]
  rfl

theorem memberStep_end (member : σ → String → Reader σ) (state : Bool × σ) (layout : Layout)
    (level : Nat) (rest : List Char) :
    memberStep member state (layout.lineStart level ++ '}' :: rest)
      = .ok (.inr state.2, rest) := by
  rw [memberStep, bind_ok (more_end (by decide) _ layout level rest), if_neg Bool.false_ne_true,
    bind_ok (token_cons (by decide) rest)]
  rfl

/-- The written members, read one after another, lead from one state to another. -/
inductive Takes (member : σ → String → Reader σ) (layout : Layout) (level : Nat) :
    σ → List (String × Value) → σ → Prop
  | nil (state : σ) : Takes member layout level state [] state
  | cons {state next last : σ} {key : String} {value : Value} {members : List (String × Value)}
      (head : ∀ {rest}, Delimited rest →
        member state key (layout.colon ++ (value.print layout level ++ rest)) = .ok (next, rest))
      (tail : Takes member layout level next members last) :
      Takes member layout level state ((key, value) :: members) last

/-- States that are read for a part of a larger one are read alike inside it. -/
theorem Takes.map {τ : Type} {member : σ → String → Reader σ} {member' : τ → String → Reader τ}
    {layout : Layout} {level : Nat} {state last : σ} {members : List (String × Value)}
    (h : Takes member layout level state members last) (f : σ → τ)
    (hf : ∀ state, ∀ key ∈ members.map (·.1), member' (f state) key = f <$> member state key) :
    Takes member' layout level (f state) members (f last) := by
  induction h with
  | nil state => exact .nil _
  | cons head tail ih =>
      refine .cons (fun hrest => ?_) (ih fun state key hkey => hf state key (.tail _ hkey))
      rw [hf _ _ (List.mem_cons_self ..)]
      exact map_ok (head hrest)

/-- One member and then the others, where `front` is what stands before the key. -/
theorem iterate_member {member : σ → String → Reader σ} {state : Bool × σ} {next : σ}
    {key : String} {front after tail : List Char} {result : σ × List Char}
    (hmore : ∀ cs, more '}' state.1 (front ++ '"' :: cs) = .ok (true, '"' :: cs))
    (hmember : member state.2 key after = .ok (next, tail)) (hshort : tail.length ≤ after.length)
    (htail : iterate (memberStep member) (false, next) tail = .ok result) :
    iterate (memberStep member) state (front ++ (quote key ++ after)) = .ok result := by
  refine iterate_inl (memberStep_of_more (hmore _) hmember) ?_ htail
  simp only [quote, List.length_append, List.length_cons]
  omega

/-- The members after the first one, up to the closing brace. -/
theorem iterate_memberStep {member : σ → String → Reader σ} {layout : Layout} {level : Nat}
    {state last : σ} {written : List (String × Value)}
    (h : Takes member layout (level + 1) state written last) (rest : List Char) :
    iterate (memberStep member) (false, state)
        (printMembers layout (level + 1) written ++ (layout.lineStart level ++ '}' :: rest))
      = .ok (last, rest) := by
  induction h with
  | nil state =>
      rw [printMembers, List.nil_append]
      exact iterate_inr (memberStep_end member (false, state) layout level rest)
  | @cons state next last key value written head tail ih =>
      -- what follows the value begins the next member or ends the object
      have hmember := head (delimited_members layout level written rest)
      rw [printMembers]
      simp only [List.cons_append, List.append_assoc]
      refine @iterate_member _ _ _ _ _ (',' :: layout.lineStart (level + 1)) _ _ _
        (fun cs => ?_) hmember ?_ ih
      · exact more_next (by decide) (by decide) (by decide) layout (level + 1) cs
      · simp only [List.length_append]
        omega

/-- An object is read member by member. -/
theorem members_of_takes {member : σ → String → Reader σ} {layout : Layout} {level : Nat}
    {state last : σ} {written : List (String × Value)}
    (h : Takes member layout (level + 1) state written last) (rest : List Char) :
    ∃ body, (Value.object written).print layout level = '{' :: body ∧
      members member state (body ++ rest) = .ok (last, rest) := by
  cases h with
  | nil =>
      refine ⟨['}'], by rw [Value.print], ?_⟩
      exact iterate_inr (memberStep_end member (true, state) .compact level rest)
  | @cons _ next _ key value written head tail =>
      have hmember := head (delimited_members layout level written rest)
      refine ⟨_, by rw [Value.print], ?_⟩
      simp only [members, List.append_assoc, List.singleton_append]
      refine iterate_member (fun cs => ?_) hmember ?_ (iterate_memberStep tail rest)
      · exact more_first (by decide) (by decide) layout (level + 1) cs
      · simp only [List.length_append]
        omega

/-! ### Maps -/

/-- The text of a key is a text of that key. -/
def KeyText.Lawful (keys : KeyText κ) : Prop :=
  ∀ k, keys.ofText? (keys.toText k) = some k

@[simp] theorem KeyText.text_lawful : KeyText.text.Lawful := fun _ => rfl

/-- After a key the colon is taken, and then the value. -/
theorem token_colon {codec : Codec α} (h : codec.Lawful) (layout : Layout) (level : Nat) (a : α)
    {rest : List Char} (hrest : Delimited rest) :
    ∃ cs, Reader.token ':' (layout.colon ++ ((codec.write a).print layout level ++ rest))
        = .ok ((), cs) ∧ codec.read cs = .ok (a, rest) := by
  have hread := h.reads a layout level hrest
  cases layout with
  | compact => exact ⟨_, token_cons (by decide) _, hread⟩
  | pretty =>
      -- the blank after the colon is left to the reader of the value
      refine ⟨_, token_cons (by decide) _, ?_⟩
      rw [← hread]
      exact h.skips [' '] _ (by simp [isBlank])

theorem takes_insertMember [Ord κ] [Std.TransOrd κ] {keys : KeyText κ} (hkeys : keys.Lawful)
    {codec : Codec α} (h : codec.Lawful) (layout : Layout) (level : Nat)
    (entries : List (κ × α)) (m : SortedMap κ α) :
    Takes (insertMember keys codec) layout level m
      (entries.map fun entry => (keys.toText entry.1, codec.write entry.2))
      (entries.foldl (fun m entry => m.insert entry.1 entry.2) m) := by
  induction entries generalizing m with
  | nil => exact .nil m
  | cons entry entries ih =>
      refine .cons (fun hrest => ?_) (ih (m.insert entry.1 entry.2))
      obtain ⟨cs, hcolon, hread⟩ := token_colon h layout level entry.2 hrest
      rw [insertMember, hkeys entry.1]
      show (Reader.token ':' >>= fun _ => codec.read >>= fun a => pure (m.insert entry.1 a)) _ = _
      rw [bind_ok hcolon, bind_ok hread]
      rfl

@[simp] theorem map_lawful [Ord κ] [Std.TransOrd κ] {keys : KeyText κ} (hkeys : keys.Lawful)
    {codec : Codec α} (h : codec.Lawful) : (map keys codec).Lawful where
  begins m layout level := by
    obtain ⟨body, hprint, _⟩ :=
      members_of_takes (takes_insertMember hkeys h layout (level + 1) m.toList ∅) []
    exact ⟨'{', body, hprint, by decide, by decide⟩
  skips := (skipsBlanks_scalar?.bind _).bind _
  reads m layout level rest _ := by
    obtain ⟨body, hprint, hread⟩ :=
      members_of_takes (takes_insertMember hkeys h layout (level + 1) m.toList ∅) rest
    have hrebuilt : m.toList.foldl (fun m entry => m.insert entry.1 entry.2) ∅ = m :=
      SortedMap.ofList_toList m
    show (opening '{' >>= fun _ => members (insertMember keys codec) ∅)
      ((Value.object (m.toList.map fun entry =>
        (keys.toText entry.1, codec.write entry.2))).print layout level ++ rest) = _
    rw [hprint, List.cons_append, bind_ok (opening_cons (.inr rfl) _), hread, hrebuilt]

/-! ### Enumerations -/

@[simp] theorem enumeration_lawful {names : KeyText α} (hnames : names.Lawful) :
    (enumeration names).Lawful where
  begins a layout level := ⟨'"', _, print_string _ layout level, by decide, by decide⟩
  skips := skipsBlanks_peekToken?.bind _
  reads a layout level rest hrest := by
    have hstring := string_lawful.reads (names.toText a) layout level hrest
    show (enumeration names).read ((Value.string (names.toText a)).print layout level ++ rest) = _
    change string.read ((Value.string (names.toText a)).print layout level ++ rest) = _ at hstring
    rw [print_string, quote_append] at hstring ⊢
    show (peekToken? >>= _) _ = _
    rw [bind_ok (peekToken?_cons (by decide) _)]
    simp only []
    rw [bind_ok hstring, hnames a]
    rfl

/-! ### Whole texts -/

/-- What is written is decoded, also where blanks follow. -/
theorem Lawful.decode_encode {codec : Codec α} (h : codec.Lawful) (layout : Layout) (a : α)
    (after : String) (hafter : ∀ c ∈ after.toList, isBlank c = true) :
    codec.decode (codec.encode layout a ++ after) = .ok a := by
  have hread := h.reads a layout 0 (delimited_of_isBlank hafter)
  have htext : (codec.encode layout a ++ after).toList
      = (codec.write a).print layout 0 ++ after.toList := by
    rw [encode, Value.render, String.toList_append, String.toList_ofList]
  rw [decode, Reader.run, htext, hread]
  show (if after.toList.all isBlank then Except.ok a else Except.error Fault.malformed) = _
  rw [if_pos (List.all_eq_true.2 hafter)]

end Codec

end BuildAtlas.Json
