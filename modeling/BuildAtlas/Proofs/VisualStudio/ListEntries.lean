import BuildAtlas.Proofs.Text
import BuildAtlas.VisualStudio.ProjectDocument

/-!
# BuildAtlas.Proofs.VisualStudio.ListEntries

How lists in documents are parted into entries.

Inheritance markers are taken out of the whole text before it is parted, and a marker may hold
semicolons, so a marker that is open at the end of a list would take in what is put behind it. In a
list whose markers are closed (`MarkersClosed`) this cannot happen: the markers of two lists that a
semicolon joins are those of each list (`withoutMarkers_append`), so the entries of the one are
followed by those of the other, and a marker that stands by itself is no entry
(`listEntries_joined`).
-/

namespace BuildAtlas.VisualStudio

/-- Each `%(` of the text is followed by a `)`. -/
def MarkersClosed (cs : List Char) : Prop :=
  ∀ after, '%' :: '(' :: after <:+ cs → ')' ∈ after

instance (cs : List Char) : Decidable (MarkersClosed cs) :=
  decidable_of_iff (∀ tail ∈ cs.tails, ['%', '('] <+: tail → ')' ∈ tail) <| by
    constructor
    · intro h after hafter
      have hmem := h _ ((List.mem_tails _ _).2 hafter) ⟨after, rfl⟩
      simpa using hmem
    · rintro h tail htail ⟨after, rfl⟩
      exact List.mem_append_right _ (h after ((List.mem_tails _ _).1 htail))

/-! ### Runs -/

/-- What is left of a run of characters that a `)` ends. -/
def closedRun (run : List Char) : List Char :=
  match Text.breakOn? ['%', '('] run with
  | some (before, _) => before
  | none => run ++ [')']

/-- A text is one run, or a run that a `)` ends and a text behind it. -/
theorem runs_induction {p : List Char → Prop} (last : ∀ cs, ')' ∉ cs → p cs)
    (more : ∀ run rest, ')' ∉ run → p rest → p (run ++ ')' :: rest)) (cs : List Char) : p cs := by
  by_cases h : ')' ∈ cs
  · obtain ⟨run, rest, hcs, hrun⟩ := List.eq_append_cons_of_mem h
    have hshorter : rest.length < cs.length := by
      simp only [hcs, List.length_append, List.length_cons]
      omega
    exact hcs ▸ more run rest hrun (runs_induction last more rest)
  · exact last cs h
termination_by cs.length

theorem withoutMarkers_last {cs : List Char} (h : ')' ∉ cs) : withoutMarkers cs = cs := by
  rw [withoutMarkers, List.splitOn_eq_singleton h]
  rfl

theorem withoutMarkers_more {run : List Char} (h : ')' ∉ run) (rest : List Char) :
    withoutMarkers (run ++ ')' :: rest) = closedRun run ++ withoutMarkers rest := by
  have hruns : (run ++ ')' :: rest).splitOn ')' = run :: rest.splitOn ')' := by
    rw [List.splitOn_append_cons_self, List.splitOn_eq_singleton h]
    rfl
  obtain ⟨first, runs, hrest⟩ := List.exists_cons_of_ne_nil (rest.splitOn_ne_nil ')')
  rw [withoutMarkers, withoutMarkers, hruns, hrest, List.dropLast_cons_cons, List.flatMap_cons,
    List.getLast?_cons_cons, List.append_assoc]
  rfl

/-- A character at which no marker begins stays. -/
theorem closedRun_cons {c : Char} {run : List Char} (h : ¬ ['%', '('] <+: c :: run) :
    closedRun (c :: run) = c :: closedRun run := by
  rw [closedRun, closedRun, Text.breakOn?, Text.after?_eq_none_iff.2 h]
  cases Text.breakOn? ['%', '('] run with
  | none => rfl
  | some parts => rfl

/-- What stands in front of a semicolon and begins no marker stays. -/
theorem closedRun_append {front : List Char} (h : ¬ ['%', '('] <:+: front) (run : List Char) :
    closedRun (front ++ ';' :: run) = front ++ ';' :: closedRun run := by
  induction front with
  | nil => exact closedRun_cons fun hmarker => by simp at hmarker
  | cons c front ih =>
      have hhead : ¬ ['%', '('] <+: c :: (front ++ ';' :: run) := by
        rintro hmarker
        cases front with
        | nil => simp at hmarker
        | cons d front =>
            refine h (List.IsPrefix.isInfix ?_)
            simpa [List.cons_prefix_cons] using hmarker
      have htail : ¬ ['%', '('] <:+: front := fun hmarker =>
        h (hmarker.trans (List.suffix_cons c front).isInfix)
      rw [List.cons_append, closedRun_cons hhead, ih htail, List.cons_append]

theorem closedRun_of_not_infix {run : List Char} (h : ¬ ['%', '('] <:+: run) :
    closedRun run = run ++ [')'] := by
  have hnone : Text.breakOn? ['%', '('] run = none := by
    rw [Option.eq_none_iff_forall_ne_some]
    rintro ⟨before, rest⟩ hcut
    exact h ⟨before, rest, (Text.eq_of_breakOn? hcut).symm⟩
  rw [closedRun, hnone]

/-! ### Markers -/

theorem MarkersClosed.of_append {front back : List Char} (h : MarkersClosed (front ++ back)) :
    MarkersClosed back :=
  fun after hafter => h after (hafter.trans (List.suffix_append front back))

/-- A run that no `)` ends has no marker, when the markers are closed. -/
theorem MarkersClosed.not_infix {cs : List Char} (h : MarkersClosed cs) (hend : ')' ∉ cs) :
    ¬ ['%', '('] <:+: cs := by
  rintro ⟨before, after, rfl⟩
  have hmem : ')' ∈ after := h after ⟨before, by simp⟩
  exact hend (List.mem_append_right _ hmem)

/-- At the end of a text a `)` closes all markers. -/
theorem markersClosed_concat (cs : List Char) : MarkersClosed (cs ++ [')']) := by
  intro after hafter
  have hlast : ('%' :: '(' :: after).getLast? = some ')' := by
    obtain ⟨front, hfront⟩ := hafter
    have hwhole := congrArg List.getLast? hfront
    rwa [List.getLast?_concat, List.getLast?_append_of_ne_nil _ (List.cons_ne_nil _ _)] at hwhole
  cases after with
  | nil => exact absurd hlast (by decide)
  | cons c after =>
      rw [List.getLast?_cons_cons, List.getLast?_cons_cons] at hlast
      exact List.mem_of_getLast? hlast

theorem withoutMarkers_append_of_not_infix {front : List Char} (h : ¬ ['%', '('] <:+: front)
    (hend : ')' ∉ front) (back : List Char) :
    withoutMarkers (front ++ ';' :: back) = front ++ ';' :: withoutMarkers back := by
  have hrun {run : List Char} (hrun : ')' ∉ run) : ')' ∉ front ++ ';' :: run := by
    simp [hend, hrun]
  induction back using runs_induction with
  | last back hback => rw [withoutMarkers_last (hrun hback), withoutMarkers_last hback]
  | more run rest hmore ih =>
      have hassoc :
          front ++ ';' :: (run ++ ')' :: rest) = (front ++ ';' :: run) ++ ')' :: rest := by
        simp
      rw [hassoc, withoutMarkers_more (hrun hmore), withoutMarkers_more hmore, closedRun_append h]
      simp

/-- No marker reaches from a list with closed markers into what a semicolon parts from it. -/
theorem withoutMarkers_append {front : List Char} (h : MarkersClosed front) (back : List Char) :
    withoutMarkers (front ++ ';' :: back) = withoutMarkers front ++ ';' :: withoutMarkers back := by
  induction front using runs_induction with
  | last front hend =>
      rw [withoutMarkers_last hend, withoutMarkers_append_of_not_infix (h.not_infix hend) hend]
  | more run rest hrun ih =>
      have hrest : MarkersClosed rest :=
        @MarkersClosed.of_append (run ++ [')']) rest (by simpa using h)
      rw [List.append_assoc, List.cons_append, withoutMarkers_more hrun, withoutMarkers_more hrun,
        ih hrest, List.append_assoc]

theorem withoutMarkers_of_not_infix {cs : List Char} (h : ¬ ['%', '('] <:+: cs) :
    withoutMarkers cs = cs := by
  induction cs using runs_induction with
  | last cs hend => exact withoutMarkers_last hend
  | more run rest hrun ih =>
      have hfront : ¬ ['%', '('] <:+: run := fun hmarker =>
        h (hmarker.trans (List.prefix_append _ _).isInfix)
      have hback : ¬ ['%', '('] <:+: rest := fun hmarker =>
        h (hmarker.trans ((List.suffix_cons _ _).trans (List.suffix_append _ _)).isInfix)
      rw [withoutMarkers_more hrun, closedRun_of_not_infix hfront, ih hback]
      simp

/-- Nothing is left of a marker. -/
theorem withoutMarkers_marker {text : List Char} (h : ')' ∉ text) :
    withoutMarkers ('%' :: '(' :: (text ++ [')'])) = [] := by
  have hrun : ')' ∉ '%' :: '(' :: text := by
    simpa using h
  have hcut : closedRun ('%' :: '(' :: text) = [] := rfl
  have hrest := withoutMarkers_more hrun []
  rw [hcut, withoutMarkers_last List.not_mem_nil] at hrest
  exact hrest

/-! ### Entries -/

theorem listEntries_append {front : String} (h : MarkersClosed front.toList) (back : String) :
    listEntries (front ++ ";" ++ back) = listEntries front ++ listEntries back := by
  have htext : (front ++ ";" ++ back).toList = front.toList ++ ';' :: back.toList := by
    simp [String.toList_append]
  rw [listEntries, listEntries, listEntries, htext, withoutMarkers_append h,
    List.splitOn_append_cons_self, List.map_append, List.filter_append, List.map_append]

theorem toList_marker (text : String) :
    ("%(" ++ text ++ ")").toList = '%' :: '(' :: (text.toList ++ [')']) := by
  simp [String.toList_append]

theorem listEntries_marker {text : String} (h : ')' ∉ text.toList) :
    listEntries ("%(" ++ text ++ ")") = [] := by
  rw [listEntries, toList_marker, withoutMarkers_marker h]
  decide

/-- A text without semicolons and markers is one entry, unless it is blank. -/
theorem listEntries_of_plain {text : String} (hmarker : ¬ ['%', '('] <:+: text.toList)
    (hsemicolon : ';' ∉ text.toList) :
    listEntries text = if Text.trim text = "" then [] else [Text.trim text] := by
  have htrim : Text.trim text = "" ↔ Text.trimWhere Text.isBlank text.toList = [] := by
    rw [Text.trim, Text.trimMatches, ← String.toList_inj, String.toList_ofList]
    rfl
  rw [listEntries, withoutMarkers_of_not_infix hmarker, List.splitOn_eq_singleton hsemicolon]
  by_cases hblank : Text.trimWhere Text.isBlank text.toList = []
  · rw [if_pos (htrim.2 hblank)]
    simp [hblank]
  · rw [if_neg (htrim.not.2 hblank)]
    simp [hblank, Text.trim, Text.trimMatches]

/-- An entry of a list: some text without semicolons, and no blanks around it. -/
structure IsEntry (entry : String) : Prop where
  ne_empty : entry ≠ ""
  not_isBlank_head : ∀ c, entry.toList.head? = some c → Text.isBlank c = false
  not_isBlank_last : ∀ c, entry.toList.getLast? = some c → Text.isBlank c = false
  semicolon_not_mem : ';' ∉ entry.toList

theorem isEntry_of_mem_listEntries {value entry : String} (h : entry ∈ listEntries value) :
    IsEntry entry := by
  rw [listEntries] at h
  obtain ⟨cs, hcs, rfl⟩ := List.mem_map.1 h
  obtain ⟨hmem, hne⟩ := List.mem_filter.1 hcs
  obtain ⟨piece, hpiece, rfl⟩ := List.mem_map.1 hmem
  constructor
  · intro hempty
    have hnil := congrArg String.toList hempty
    rw [String.toList_ofList] at hnil
    rw [hnil] at hne
    exact absurd hne (by decide)
  · intro c hc
    rw [String.toList_ofList] at hc
    exact Text.eq_false_of_head?_trimWhere hc
  · intro c hc
    rw [String.toList_ofList] at hc
    exact Text.eq_false_of_getLast?_dropEndWhile hc
  · rw [String.toList_ofList]
    intro hsemicolon
    exact Text.not_mem_of_mem_splitOn hpiece (Text.mem_of_mem_trimWhere hsemicolon)

/-- The entries of two lists that a semicolon joins are those of the one and then those of the
other, when the markers of the first list are closed. A marker that stands in front of such a list
or behind it is no entry. Entries are texts without semicolons and without blanks around them, and
a text without semicolons and markers is one, unless it is blank. -/
theorem listEntries_joined {front : String} (h : MarkersClosed front.toList) :
    (∀ back, listEntries (front ++ ";" ++ back) = listEntries front ++ listEntries back) ∧
      (∀ text, ')' ∉ text.toList →
        listEntries ("%(" ++ text ++ ")" ++ ";" ++ front) = listEntries front ∧
          listEntries (front ++ ";" ++ ("%(" ++ text ++ ")")) = listEntries front) ∧
      (∀ value, ∀ entry ∈ listEntries value, IsEntry entry) ∧
      ∀ text, ¬ ['%', '('] <:+: text.toList → ';' ∉ text.toList →
        listEntries text = if Text.trim text = "" then [] else [Text.trim text] := by
  refine ⟨listEntries_append h, fun text htext => ⟨?_, ?_⟩,
    fun value entry => isEntry_of_mem_listEntries, fun text => listEntries_of_plain⟩
  · have hclosed : MarkersClosed ("%(" ++ text ++ ")").toList := by
      rw [String.toList_append]
      exact markersClosed_concat _
    rw [listEntries_append hclosed, listEntries_marker htext, List.nil_append]
  · rw [listEntries_append h, listEntries_marker htext, List.append_nil]

/-- A list with a marker in a marker and a semicolon in both, and one whose marker is open. -/
theorem listEntries_joined_nestedMarkers :
    MarkersClosed " A ;%(X;%(Y);B".toList ∧
      listEntries (" A ;%(X;%(Y);B" ++ ";" ++ "C;%(D") = ["A", "B", "C", "%(D"] ∧
      listEntries (" A ;%(X;%(Y);B" ++ ";" ++ ("%(" ++ "P;%(Q" ++ ")")) = ["A", "B"] := by
  have hclosed : MarkersClosed " A ;%(X;%(Y);B".toList := by decide
  have hfront : listEntries " A ;%(X;%(Y);B" = ["A", "B"] := by decide +kernel
  have hback : listEntries "C;%(D" = ["C", "%(D"] := by decide +kernel
  obtain ⟨hjoined, hmarker, -, -⟩ := listEntries_joined hclosed
  refine ⟨hclosed, ?_, ?_⟩
  · rw [hjoined, hfront, hback]
    rfl
  · rw [(hmarker "P;%(Q" (by decide)).2, hfront]

end BuildAtlas.VisualStudio
