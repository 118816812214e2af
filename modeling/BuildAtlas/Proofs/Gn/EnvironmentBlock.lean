import BuildAtlas.Gn.EnvironmentBlock
import BuildAtlas.Proofs.LastGiven
import BuildAtlas.Proofs.Text
import BuildAtlas.Proofs.Text.Utf8

/-!
# BuildAtlas.Proofs.Gn.EnvironmentBlock

Which variable of an environment block the include directories come from.

The last marker is looked for in the bytes of the whole block. It holds no zero byte, so it stands
in one entry, and there it stands either in the value or at the place where the name ends
(`afterLast?_entry`). So a variable gives directories when its value holds a marker, and also when
its name ends like the one that is meant; the last variable that gives some is the one that counts
(`includeDirs_eq_of_holds`).
-/

namespace BuildAtlas.Gn

/-! ### The last place of a marker -/

section LastPlace

variable {marker bytes rest : List UInt8}

/-- The bytes behind the last place of a marker: those behind the other places end with them. -/
def FollowsLast (marker bytes rest : List UInt8) : Prop :=
  marker ++ rest <:+ bytes ∧ ∀ other, marker ++ other <:+ bytes → rest <:+ other

theorem FollowsLast.eq {other : List UInt8} (h : FollowsLast marker bytes rest)
    (hother : FollowsLast marker bytes other) : rest = other :=
  (h.2 other hother.1).eq_of_length_le (hother.2 rest h.1).length_le

theorem afterLast?_cons (byte : UInt8) :
    afterLast? marker (byte :: bytes) =
      (afterLast? marker bytes).or (Text.after? marker (byte :: bytes)) :=
  rfl

theorem afterLast?_eq_none_iff (hmarker : marker ≠ []) :
    afterLast? marker bytes = none ↔ ¬ marker <:+: bytes := by
  induction bytes with
  | nil => simpa [afterLast?] using hmarker
  | cons byte bytes ih =>
      rw [afterLast?_cons, Option.or_eq_none_iff, ih, Text.after?_eq_none_iff,
        List.infix_cons_iff]
      tauto

theorem followsLast_of_afterLast? (hmarker : marker ≠ [])
    (h : afterLast? marker bytes = some rest) : FollowsLast marker bytes rest := by
  induction bytes with
  | nil => exact nomatch h
  | cons byte bytes ih =>
      rw [afterLast?_cons] at h
      cases hlater : afterLast? marker bytes with
      | some later =>
          rw [hlater] at h
          obtain rfl := Option.some.inj h
          obtain ⟨hplace, hlast⟩ := ih hlater
          refine ⟨hplace.trans (List.suffix_cons ..), fun other hother => ?_⟩
          rcases List.suffix_cons_iff.1 hother with hfront | hother
          · -- the place in front has more behind it than any other
            have hlonger := hplace.length_le
            have hlength := congrArg List.length hfront
            rw [List.length_append, List.length_cons] at hlength
            rw [List.length_append] at hlonger
            exact List.suffix_of_suffix_length_le
              ((List.suffix_append ..).trans (hplace.trans (List.suffix_cons ..)))
              ((List.suffix_append ..).trans hother) (by omega)
          · exact hlast other hother
      | none =>
          rw [hlater, Option.none_or] at h
          have hfront := Text.after?_eq_some_iff.1 h
          refine ⟨hfront ▸ List.suffix_rfl, fun other hother => ?_⟩
          rcases List.suffix_cons_iff.1 hother with hwhole | hother
          · rw [List.append_cancel_left (hwhole.trans hfront)]
          · have hplace : marker <:+: bytes := (List.prefix_append ..).isInfix.trans hother.isInfix
            exact absurd hplace ((afterLast?_eq_none_iff hmarker).1 hlater)

theorem afterLast?_eq_some_iff (hmarker : marker ≠ []) :
    afterLast? marker bytes = some rest ↔ FollowsLast marker bytes rest := by
  refine ⟨followsLast_of_afterLast? hmarker, fun h => ?_⟩
  cases hfound : afterLast? marker bytes with
  | none =>
      have hplace : marker <:+: bytes := (List.prefix_append ..).isInfix.trans h.1.isInfix
      exact absurd hplace ((afterLast?_eq_none_iff hmarker).1 hfound)
  | some found => rw [h.eq (followsLast_of_afterLast? hmarker hfound)]

/-- A marker does not reach over a byte that it does not hold. -/
theorem after?_append_cons {byte : UInt8} {front back : List UInt8} (h : byte ∉ marker) :
    Text.after? marker (front ++ byte :: back) =
      (Text.after? marker front).map (· ++ byte :: back) := by
  refine Option.ext fun rest => ?_
  simp only [Option.map_eq_some_iff, Text.after?_eq_some_iff, List.append_eq_append_iff]
  constructor
  · rintro (⟨more, rfl, hback⟩ | ⟨more, rfl, rfl⟩)
    · cases more with
      | nil => exact ⟨[], by simp, hback⟩
      | cons first more =>
          obtain ⟨rfl, -⟩ := List.cons.inj hback
          exact absurd (by simp) h
    · exact ⟨more, rfl, rfl⟩
  · rintro ⟨more, rfl, rfl⟩
    exact .inr ⟨more, rfl, rfl⟩

theorem afterLast?_append_cons {byte : UInt8} {front back : List UInt8} (hmarker : marker ≠ [])
    (h : byte ∉ marker) : afterLast? marker (front ++ byte :: back) =
      (afterLast? marker back).or ((afterLast? marker front).map (· ++ byte :: back)) := by
  induction front with
  | nil =>
      have hnone : Text.after? marker (byte :: back) = none := by
        rw [Text.after?_eq_none_iff]
        rintro ⟨rest, hrest⟩
        obtain ⟨first, more, rfl⟩ := List.exists_cons_of_ne_nil hmarker
        obtain ⟨rfl, -⟩ := List.cons.inj hrest
        exact h List.mem_cons_self
      rw [List.nil_append, afterLast?_cons, hnone]
      rfl
  | cons first front ih =>
      rw [List.cons_append, afterLast?_cons, ih, ← List.cons_append, after?_append_cons h,
        afterLast?_cons, Option.map_or, Option.or_assoc]

/-- A marker that holds a byte only at its end stands behind the first such byte of an entry, or it
ends with this byte. -/
theorem afterLast?_entry {word name value : List UInt8} {byte : UInt8} (hword : byte ∉ word)
    (hname : byte ∉ name) : afterLast? (word ++ [byte]) (name ++ byte :: value) =
      (afterLast? (word ++ [byte]) value).or (if word <:+ name then some value else none) := by
  have hfront {name : List UInt8} (hname : byte ∉ name) :
      Text.after? (word ++ [byte]) (name ++ byte :: value) =
        if word = name then some value else none := by
    refine Option.ext fun rest => ?_
    rw [Text.after?_eq_some_iff, List.append_assoc, List.singleton_append,
      Text.append_cons_eq_append_cons_iff hname hword]
    by_cases h : word = name
    · simp [h]
    · simp [h, Ne.symm h]
  induction name with
  | nil =>
      have hnil := hfront hname
      rw [List.nil_append] at hnil ⊢
      rw [afterLast?_cons, hnil]
      simp only [List.suffix_nil]
  | cons first name ih =>
      have hwhole := hfront hname
      rw [List.cons_append] at hwhole ⊢
      rw [afterLast?_cons, hwhole, ih (List.not_mem_of_not_mem_cons hname), Option.or_assoc]
      congr 1
      by_cases hshorter : word <:+ name
      · simp [hshorter, List.suffix_cons_iff]
      · simp [hshorter, List.suffix_cons_iff]

end LastPlace

/-! ### Entries -/

/-- The byte that stands behind each entry of a block. -/
def endByte : UInt8 := 0

/-- The byte that stands between the name and the value of an entry. -/
def equalsByte : UInt8 := 0x3D

/-- The name of the variable that holds the include directories. -/
def includeName : List UInt8 :=
  Text.utf8 "INCLUDE"

theorem includeMarker_eq : includeMarker = includeName ++ [equalsByte] := by
  decide +kernel

theorem includeMarker_ne_nil : includeMarker ≠ [] := by
  decide +kernel

theorem endByte_not_mem_includeMarker : endByte ∉ includeMarker := by
  decide +kernel

/-- The include directories that a value lists: the texts between its semicolons, with slashes and
without the blanks around them, where they are not empty. -/
def directories (value : List UInt8) : List String :=
  ((Text.splitOn ';' (Text.ofBytesLossy value)).map fun dir =>
    Text.trim (Path.withSlashes dir)).filter (· != "")

/-- A value that lists texts lists these as directories. -/
theorem directories_utf8 {dirs : List String} (h : ∀ dir ∈ dirs, ';' ∉ dir.toList)
    (hne : dirs ≠ []) : directories (Text.utf8 (";".intercalate dirs)) =
      (dirs.map fun dir => Text.trim (Path.withSlashes dir)).filter (· != "") := by
  rw [directories, Text.ofBytesLossy_utf8, Text.splitOn_intercalate String.toList_ofList h hne]

/-- What the last marker of a piece leaves ends with the piece. -/
theorem takeWhile_append_of_afterLast? {piece rest : List UInt8} (hpiece : endByte ∉ piece)
    (h : afterLast? includeMarker piece = some rest) (more : List UInt8)
    (hmore : ∀ byte ∈ more.head?, byte = endByte) :
    (rest ++ more).takeWhile (· != endByte) = rest := by
  have hrest : ∀ byte ∈ rest, (byte != endByte) = true := by
    intro byte hbyte
    have hplace := (followsLast_of_afterLast? includeMarker_ne_nil h).1
    have hmem : byte ∈ piece := hplace.subset (List.mem_append_right _ hbyte)
    exact bne_iff_ne.2 fun hend => hpiece (hend ▸ hmem)
  rw [List.takeWhile_append_of_pos hrest]
  cases more with
  | nil => simp
  | cons byte more =>
      obtain rfl := hmore byte rfl
      rw [List.takeWhile_cons_of_neg (by simp), List.append_nil]

/-- What a block gives is what the last of its pieces gives that gives anything. -/
theorem afterLast?_intercalate {pieces : List (List UInt8)}
    (h : ∀ piece ∈ pieces, endByte ∉ piece) :
    (afterLast? includeMarker ([endByte].intercalate pieces)).map
        (·.takeWhile (· != endByte)) =
      (pieces.filterMap (afterLast? includeMarker)).getLast? := by
  induction pieces with
  | nil => rfl
  | cons piece pieces ih =>
      rw [List.forall_mem_cons] at h
      obtain ⟨hpiece, hpieces⟩ := h
      have hlast : ((piece :: pieces).filterMap (afterLast? includeMarker)).getLast? =
          (pieces.filterMap (afterLast? includeMarker)).getLast?.or
            (afterLast? includeMarker piece) := by
        rw [List.filterMap_cons]
        cases afterLast? includeMarker piece with
        | none => simp
        | some rest => simp [List.getLast?_cons]
      rw [hlast, ← ih hpieces]
      cases pieces with
      | nil =>
          rw [List.intercalate_singleton]
          cases hfound : afterLast? includeMarker piece with
          | none => rfl
          | some rest =>
              have hrest := takeWhile_append_of_afterLast? hpiece hfound [] (by simp)
              rw [List.append_nil] at hrest
              simp [hrest, afterLast?]
      | cons next pieces =>
          rw [List.intercalate_cons_cons, List.append_assoc, List.singleton_append,
            afterLast?_append_cons includeMarker_ne_nil endByte_not_mem_includeMarker,
            Option.map_or, Option.map_map]
          congr 1
          cases hfound : afterLast? includeMarker piece with
          | none => rfl
          | some rest =>
              exact congrArg some (takeWhile_append_of_afterLast? hpiece hfound _ (by simp))

/-- The directories of a block are those that its last giving piece gives. -/
theorem includeDirs_eq (block : List UInt8) :
    includeDirs block =
      (((block.splitOn endByte).filterMap (afterLast? includeMarker)).getLast?.map
        directories).getD [] := by
  have hends : ∀ piece ∈ block.splitOn endByte, endByte ∉ piece :=
    fun _ => Text.not_mem_of_mem_splitOn
  rw [← afterLast?_intercalate hends, List.intercalate_splitOn, includeDirs]
  cases afterLast? includeMarker block with
  | none => rfl
  | some rest => rfl

/-- A variable of an environment. -/
structure Variable where
  name : List UInt8
  value : List UInt8
  /-- The first equals sign of an entry ends the name. -/
  equalsByte_not_mem : equalsByte ∉ name

/-- The entry of a variable. -/
def Variable.entry (v : Variable) : List UInt8 :=
  v.name ++ equalsByte :: v.value

/-- The pieces of a block between its ends are the entries of these variables. A piece without a
byte is no entry. -/
def Holds (block : List UInt8) (environment : List Variable) : Prop :=
  (block.splitOn endByte).filter (· ≠ []) = environment.map Variable.entry

/-- The bytes that a variable gives for the include directories: those behind the last marker in its
value, and without a marker there the whole value, when the name of the variable ends like the name
that is meant. -/
def Variable.Gives (v : Variable) (bytes : List UInt8) : Prop :=
  FollowsLast includeMarker v.value bytes ∨
    ¬ includeMarker <:+: v.value ∧ includeName <:+ v.name ∧ bytes = v.value

theorem Variable.afterLast?_entry_eq_some_iff (v : Variable) (bytes : List UInt8) :
    afterLast? includeMarker v.entry = some bytes ↔ v.Gives bytes := by
  have hword : equalsByte ∉ includeName := by decide +kernel
  rw [Variable.entry, Variable.Gives, includeMarker_eq, afterLast?_entry hword v.equalsByte_not_mem,
    ← includeMarker_eq, ← afterLast?_eq_some_iff includeMarker_ne_nil,
    ← afterLast?_eq_none_iff includeMarker_ne_nil]
  cases afterLast? includeMarker v.value with
  | none => simp [eq_comm]
  | some found => simp

/-- A variable gives nothing just when no marker stands in its entry. -/
theorem Variable.forall_not_gives_iff (v : Variable) :
    (∀ bytes, ¬ v.Gives bytes) ↔ ¬ includeMarker <:+: v.entry := by
  rw [← afterLast?_eq_none_iff includeMarker_ne_nil]
  exact (eq_none_iff_forall_not Variable.afterLast?_entry_eq_some_iff v).symm

/-- Empty pieces give nothing, so the variables of a block give what its pieces give. -/
theorem Holds.filterMap_splitOn {block : List UInt8} {environment : List Variable}
    (h : Holds block environment) :
    (block.splitOn endByte).filterMap (afterLast? includeMarker) =
      environment.filterMap fun v => afterLast? includeMarker v.entry := by
  have hempty : (fun piece : List UInt8 =>
      if decide (piece ≠ []) then afterLast? includeMarker piece else none) =
        afterLast? includeMarker := by
    funext piece
    cases piece with
    | nil => rfl
    | cons byte bytes => rfl
  calc (block.splitOn endByte).filterMap (afterLast? includeMarker)
      = ((block.splitOn endByte).filter (· ≠ [])).filterMap (afterLast? includeMarker) := by
        rw [List.filterMap_filter, hempty]
    _ = environment.filterMap fun v => afterLast? includeMarker v.entry := by
        rw [h, List.filterMap_map]
        rfl

/-- A block with these entries, each in front of its end. -/
def blockOf (environment : List Variable) : List UInt8 :=
  environment.flatMap fun v => v.entry ++ [endByte]

theorem blockOf_eq (environment : List Variable) :
    blockOf environment = [endByte].intercalate (environment.map Variable.entry ++ [[]]) := by
  induction environment with
  | nil => rfl
  | cons v environment ih =>
      rw [blockOf] at ih ⊢
      obtain ⟨next, more, hrest⟩ := List.exists_cons_of_ne_nil
        (l := environment.map Variable.entry ++ [[]]) (by simp)
      rw [List.flatMap_cons, ih, List.map_cons, List.cons_append, hrest,
        List.intercalate_cons_cons]

/-- The variables whose entries hold no end are those that the block with these entries holds. -/
theorem holds_blockOf {environment : List Variable}
    (h : ∀ v ∈ environment, endByte ∉ v.entry) : Holds (blockOf environment) environment := by
  have hends : ∀ piece ∈ environment.map Variable.entry ++ [[]], endByte ∉ piece := by
    simpa [or_imp, forall_and] using h
  have hentries : ∀ entry ∈ environment.map Variable.entry, decide (entry ≠ []) = true := by
    simp [Variable.entry]
  rw [Holds, blockOf_eq, List.splitOn_intercalate endByte hends (by simp), List.filter_append,
    List.filter_eq_self.2 hentries]
  simp

/-- Let the pieces of a block be entries. Its directories are those in the bytes that the last
variable gives that gives some, and there are none when no variable gives any. So the variable with
the name that is meant counts, whatever stands in front of it, when no marker stands in its value or
in an entry behind it. -/
theorem includeDirs_eq_of_holds {block : List UInt8} {environment : List Variable}
    (h : Holds block environment) :
    (∀ bytes, LastGives Variable.Gives environment bytes → includeDirs block = directories bytes) ∧
    (NoneGives Variable.Gives environment → includeDirs block = []) ∧
    ∀ before v after, environment = before ++ v :: after → v.name = includeName →
      ¬ includeMarker <:+: v.value → (∀ other ∈ after, ¬ includeMarker <:+: other.entry) →
        includeDirs block = directories v.value := by
  have hlast : ∀ bytes, LastGives Variable.Gives environment bytes →
      includeDirs block = directories bytes := by
    intro bytes hbytes
    rw [← getLast?_filterMap_eq_some_iff Variable.afterLast?_entry_eq_some_iff] at hbytes
    rw [includeDirs_eq, h.filterMap_splitOn, hbytes]
    rfl
  refine ⟨hlast, fun hnone => ?_, fun before v after henvironment hname hvalue hafter => ?_⟩
  · rw [← getLast?_filterMap_eq_none_iff Variable.afterLast?_entry_eq_some_iff] at hnone
    rw [includeDirs_eq, h.filterMap_splitOn, hnone]
    rfl
  · refine hlast v.value ⟨before, v, after, henvironment, ?_, fun other hother => ?_⟩
    · exact .inr ⟨hvalue, hname ▸ List.suffix_rfl, rfl⟩
    · exact other.forall_not_gives_iff.2 (hafter other hother)

/-- A variable with a name and a value as texts. -/
def Variable.ofTexts (name value : String) (h : equalsByte ∉ Text.utf8 name) : Variable where
  name := Text.utf8 name
  value := Text.utf8 value
  equalsByte_not_mem := h

/-- The variable with the include directories of a toolchain. -/
def toolchainInclude : Variable :=
  .ofTexts "INCLUDE" "C:\\VS\\include; C:\\SDK;" (by decide +kernel)

/-- A variable whose name ends like the one that is meant. -/
def externalInclude : Variable :=
  .ofTexts "EXTERNAL_INCLUDE" "C:\\other" (by decide +kernel)

theorem holds_toolchainEnvironment (environment : List Variable)
    (h : environment ∈ [[externalInclude, toolchainInclude], [toolchainInclude, externalInclude],
      [externalInclude]]) : Holds (blockOf environment) environment := by
  refine holds_blockOf fun v hv => ?_
  have hends : ∀ v ∈ [externalInclude, toolchainInclude], endByte ∉ v.entry := by decide +kernel
  refine hends v ?_
  simp only [List.mem_cons, List.not_mem_nil, or_false] at h ⊢
  rcases h with rfl | rfl | rfl
  · simpa using hv
  · simpa [or_comm] using hv
  · exact .inl (by simpa using hv)

theorem includeDirs_eq_of_holds_toolchainInclude :
    includeDirs (blockOf [externalInclude, toolchainInclude]) = ["C:/VS/include", "C:/SDK"] := by
  have hholds := holds_toolchainEnvironment [externalInclude, toolchainInclude] (by simp)
  rw [(includeDirs_eq_of_holds hholds).2.2 [externalInclude] toolchainInclude [] rfl rfl
    (by decide +kernel) (by simp)]
  decide +kernel

/-- Behind the variable that is meant, another one of which only the end of the name is the same
counts instead, and it counts as well when the one that is meant is not there. -/
theorem includeDirs_externalInclude :
    Holds (blockOf [toolchainInclude, externalInclude]) [toolchainInclude, externalInclude] ∧
      toolchainInclude.name = includeName ∧ externalInclude.name ≠ includeName ∧
      directories toolchainInclude.value = ["C:/VS/include", "C:/SDK"] ∧
      includeDirs (blockOf [toolchainInclude, externalInclude]) = ["C:/other"] ∧
      Holds (blockOf [externalInclude]) [externalInclude] ∧
      includeDirs (blockOf [externalInclude]) = ["C:/other"] := by
  refine ⟨holds_toolchainEnvironment _ (by simp), rfl, ?_, ?_, ?_,
    holds_toolchainEnvironment _ (by simp), ?_⟩
  · decide +kernel
  · decide +kernel
  · decide +kernel
  · decide +kernel

end BuildAtlas.Gn
