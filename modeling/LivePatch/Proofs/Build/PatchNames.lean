import LivePatch.Build.PatchFiles
import LivePatch.Patch.Load
import LivePatch.Proofs.Files.Siblings

/-!
# Names of patches

A module gives its patches names that start with its stem and end in the extensions of images and
databases. Numbers and process identifiers stand in between, so that no image has the name of
another one, of a database or of a copy for a process. A module in the working directory has patches
of names that can be written down.
-/

namespace LivePatch

namespace Path

/-- A name of a file in the working directory that has a stem and an extension. -/
structure IsNamed (stem extension : List Char) : Prop where
  stem_ne_nil : stem ≠ []
  stem_ne_dot : stem ≠ ['.']
  stem_slash : '/' ∉ stem
  extension_ne_nil : extension ≠ []
  extension_slash : '/' ∉ extension
  extension_dot : '.' ∉ extension

/-- The file of a stem and an extension. -/
def named (stem extension : List Char) : Path := ⟨String.ofList (stem ++ '.' :: extension)⟩

namespace IsNamed

variable {stem extension : List Char}

theorem segments (h : IsNamed stem extension) :
    (named stem extension).segments = [stem ++ '.' :: extension] := by
  have hslash : '/' ∉ stem ++ '.' :: extension := by
    simp [h.stem_slash, h.extension_slash]
  unfold Path.segments named
  rw [String.toList_ofList, segmentsFrom_of_not_mem hslash, List.nil_append]

private theorem ne_of_length (h : IsNamed stem extension) {s : List Char} (hs : s.length ≤ 2) :
    stem ++ '.' :: extension ≠ s := by
  rintro rfl
  have hstem := List.length_pos_iff.mpr h.stem_ne_nil
  have hextension := List.length_pos_iff.mpr h.extension_ne_nil
  simp at hs
  omega

theorem components (h : IsNamed stem extension) :
    (named stem extension).components = [.name (String.ofList (stem ++ '.' :: extension))] := by
  unfold Path.components
  rw [h.segments]
  have hnil : stem ++ '.' :: extension ≠ [] := h.ne_of_length (by simp)
  have hdot : stem ++ '.' :: extension ≠ ['.'] := h.ne_of_length (by simp)
  have hup : stem ++ '.' :: extension ≠ ['.', '.'] := h.ne_of_length (by simp)
  simp only [firstStep, stepOf, isFiller]
  simp [hdot, hup]

theorem isFileName (h : IsNamed stem extension) :
    IsFileName (String.ofList (stem ++ '.' :: extension)) := by
  have hstem := List.length_pos_iff.mpr h.stem_ne_nil
  have hextension := List.length_pos_iff.mpr h.extension_ne_nil
  refine isFileName_of_length ?_ ?_
  · simp [h.stem_slash, h.extension_slash]
  · rw [String.toList_ofList, List.length_append, List.length_cons]
    omega

theorem fileName? (h : IsNamed stem extension) :
    (named stem extension).fileName? = some (String.ofList (stem ++ '.' :: extension)) := by
  unfold Path.fileName?
  rw [h.components]
  rfl

theorem splitName (h : IsNamed stem extension) :
    splitName (String.ofList (stem ++ '.' :: extension))
      = (String.ofList stem, some (String.ofList extension)) := by
  have hlast : lastDot? (stem ++ '.' :: extension) = some stem.length := by
    have hdrop : (extension.reverse ++ '.' :: stem.reverse).dropWhile (· != '.')
        = '.' :: stem.reverse := by
      rw [List.dropWhile_append_of_pos]
      · rfl
      · intro c hc
        rw [bne_iff_ne]
        rintro rfl
        exact h.extension_dot (List.mem_reverse.mp hc)
    unfold lastDot?
    rw [List.reverse_append, List.reverse_cons, List.append_assoc, List.singleton_append, hdrop]
    simp
  have hdrop : (stem ++ '.' :: extension).drop (stem.length + 1) = extension := by
    rw [List.append_cons, List.drop_left' (by simp)]
  unfold Path.splitName
  rw [String.toList_ofList, if_neg (h.ne_of_length (by simp)), hlast]
  obtain ⟨n, hn⟩ := Nat.exists_eq_succ_of_ne_zero (mt List.length_eq_zero_iff.mp h.stem_ne_nil)
  rw [hn]
  change (_, some (String.ofList (List.drop (n + 1 + 1) _))) = _
  rw [← Nat.succ_eq_add_one n, ← hn, List.take_left, hdrop]

theorem stem? (h : IsNamed stem extension) :
    (named stem extension).stem? = some (String.ofList stem) := by
  unfold Path.stem?
  rw [h.fileName?, Option.map_some, h.splitName]

theorem extension? (h : IsNamed stem extension) :
    (named stem extension).extension? = some (String.ofList extension) := by
  unfold Path.extension?
  rw [h.fileName?, Option.bind_some, h.splitName]

theorem parent? (h : IsNamed stem extension) : (named stem extension).parent? = some ⟨""⟩ := by
  have hnil : stem ++ '.' :: extension ≠ [] := h.ne_of_length (by simp)
  unfold Path.parent?
  rw [h.segments, h.components]
  simp [trimmed]

theorem withFileName (h : IsNamed stem extension) (name : String) :
    (named stem extension).withFileName name = ⟨name⟩ := by
  unfold Path.withFileName join
  rw [h.fileName?, h.parent?]
  simp

theorem withExtension (h : IsNamed stem extension) {other : String} :
    (named stem extension).withExtension other = named stem other.toList := by
  have hstem : (String.ofList stem == ".") = false := by
    rw [beq_eq_false_iff_ne]
    intro heq
    exact h.stem_ne_dot (by rw [← String.toList_ofList (l := stem), heq]; rfl)
  unfold Path.withExtension
  rw [h.stem?, h.segments]
  simp [trimmed, hstem, ofSegments, named]

end IsNamed
end Path

namespace PatchFiles

/-- A path that patches of a module write to: an image, its database or its copy for a process. -/
def IsOwn (module : Path) (p : Path) : Prop :=
  ∃ n, p = (ofNumber module n).image ∨ p = (ofNumber module n).database ∨
    ∃ pid, p = LoadState.copyPath (ofNumber module n).image pid

private theorem slash_notMem_decimal (n : Nat) : '/' ∉ (Text.decimal n).toList := by
  unfold Text.decimal
  rw [String.toList_ofList]
  intro h
  have := Nat.isDigit_of_mem_toDigits (by decide) (by decide) h
  revert this
  decide

private theorem underscore_notMem_decimal (n : Nat) : '_' ∉ (Text.decimal n).toList := by
  unfold Text.decimal
  rw [String.toList_ofList]
  exact Nat.underscore_not_in_toDigits

private theorem decimal_injective {n k : Nat} (h : Text.decimal n = Text.decimal k) : n = k := by
  have hdigits : Nat.toDigits 10 n = Nat.toDigits 10 k := String.ofList_injective h
  rw [← Nat.ofDigitChars_ten_toDigits (n := n), hdigits, Nat.ofDigitChars_ten_toDigits]

/-- What the names of a module's patch start with. -/
def baseName (module : Path) (n : Nat) : String :=
  module.stem?.getD "" ++ ".patch_" ++ Text.decimal n

private theorem slash_notMem_stem (module : Path) : '/' ∉ (module.stem?.getD "").toList := by
  unfold Path.stem?
  cases hname : module.fileName? with
  | none => decide
  | some name =>
    obtain ⟨-, -, -, -, hfile⟩ := Path.exists_segments hname
    rw [Option.map_some, Option.getD_some]
    unfold Path.splitName
    dsimp only
    split
    · exact hfile.slash
    · split
      · exact hfile.slash
      · exact hfile.slash
      · rw [String.toList_ofList]
        exact fun h ↦ hfile.slash (List.mem_of_mem_take h)

/-- Names that start like those of a patch have a stem and an extension. -/
private theorem isNamed_append {stem : List Char} (h : '/' ∉ stem) (n : Nat) {more : List Char}
    (hmore : '/' ∉ more) {extension : List Char} (hne : extension ≠ []) (hslash : '/' ∉ extension)
    (hdot : '.' ∉ extension) :
    Path.IsNamed (stem ++ ".patch_".toList ++ (Text.decimal n).toList ++ more) extension where
  stem_ne_nil := by simp
  stem_ne_dot heq := by
    have := congrArg List.length heq
    simp at this
    omega
  stem_slash := by simp [h, slash_notMem_decimal, hmore]
  extension_ne_nil := hne
  extension_slash := hslash
  extension_dot := hdot

section Everywhere

variable {module : Path} {n k : Nat}

/-- A name of a patch with something between its number and its extension. -/
private theorem isNamed_base (module : Path) (n : Nat) (more extension : String)
    (hmore : '/' ∉ more.toList) (hne : extension.toList ≠ [])
    (hslash : '/' ∉ extension.toList) (hdot : '.' ∉ extension.toList) :
    Path.IsNamed (baseName module n ++ more).toList extension.toList := by
  have h := isNamed_append (slash_notMem_stem module) n hmore hne hslash hdot
  simpa [baseName] using h

private theorem ofList_dot (stem extension : String) :
    String.ofList (stem.toList ++ '.' :: extension.toList) = stem ++ "." ++ extension := by
  rw [← String.toList_inj]
  simp

private theorem isFileName_base (module : Path) (n : Nat) (more extension : String)
    (hmore : '/' ∉ more.toList) (hne : extension.toList ≠ [])
    (hslash : '/' ∉ extension.toList) (hdot : '.' ∉ extension.toList) :
    Path.IsFileName (baseName module n ++ more ++ "." ++ extension) := by
  rw [← ofList_dot]
  exact (isNamed_base module n more extension hmore hne hslash hdot).isFileName

private theorem splitName_base (module : Path) (n : Nat) {extension : String}
    (hne : extension.toList ≠ []) (hslash : '/' ∉ extension.toList)
    (hdot : '.' ∉ extension.toList) :
    Path.splitName (baseName module n ++ "." ++ extension)
      = (baseName module n, some extension) := by
  have h := (isNamed_base module n "" extension List.not_mem_nil hne hslash hdot).splitName
  rw [ofList_dot, String.ofList_toList, String.ofList_toList, String.append_empty] at h
  exact h

/-- All files of a module's patches lie in one directory. -/
theorem exists_names (module : Path) : ∃ dir, ∀ n,
    (ofNumber module n).image.Names dir (baseName module n ++ "." ++ "dll") ∧
    (ofNumber module n).database.Names dir (baseName module n ++ "." ++ "pdb") ∧
    ∀ pid, (LoadState.copyPath (ofNumber module n).image pid).Names dir
      (baseName module n ++ ("_" ++ Text.decimal pid.toNat) ++ "." ++ "dll") := by
  obtain ⟨dir, hdir⟩ := module.exists_directory
  refine ⟨dir, fun n ↦ ?_⟩
  have hsplit : Path.splitName (baseName module n ++ "." ++ "dll")
      = (baseName module n, some "dll") :=
    splitName_base module n (by decide) (by decide) (by decide)
  have himage : (ofNumber module n).image.Names dir (baseName module n ++ "." ++ "dll") := by
    have hfile := isFileName_base module n "" "dll" (by decide) (by decide) (by decide) (by decide)
    rw [String.append_empty] at hfile
    have hname : baseName module n ++ ".dll" = baseName module n ++ "." ++ "dll" := by
      rw [String.append_assoc]
      rfl
    change (module.withFileName (baseName module n ++ ".dll")).Names _ _
    rw [hname]
    exact hdir _ hfile
  refine ⟨himage, ?_, fun pid ↦ ?_⟩
  · have hfile := isFileName_base module n "" "pdb" (by decide) (by decide) (by decide) (by decide)
    rw [String.append_empty] at hfile
    refine himage.withExtension (congrArg Prod.fst hsplit) (fun heq ↦ ?_) hfile
    have hlength := congrArg (fun s : String ↦ s.toList.length) heq
    simp [baseName] at hlength
    omega
  · refine himage.insertBeforeExtension hsplit (isFileName_base module n _ _ ?_ (by decide)
      (by decide) (by decide))
    simp [slash_notMem_decimal]

/-- Patches with different numbers have different images. -/
theorem isApart_image (h : n ≠ k) :
    (ofNumber module n).image.IsApart (ofNumber module k).image := by
  obtain ⟨dir, hdir⟩ := exists_names module
  refine (hdir n).1.isApart (hdir k).1 fun heq ↦ h (decimal_injective ?_)
  simpa [baseName, ← String.toList_inj] using heq

theorem isApart_databases (h : n ≠ k) :
    (ofNumber module n).database.IsApart (ofNumber module k).database := by
  obtain ⟨dir, hdir⟩ := exists_names module
  refine (hdir n).2.1.isApart (hdir k).2.1 fun heq ↦ h (decimal_injective ?_)
  simpa [baseName, ← String.toList_inj] using heq

/-- No image has the name of a database. -/
theorem isApart_database (n k : Nat) :
    (ofNumber module n).image.IsApart (ofNumber module k).database := by
  obtain ⟨dir, hdir⟩ := exists_names module
  refine (hdir n).1.isApart (hdir k).2.1 fun heq ↦ ?_
  have hlast := congrArg (fun s : String ↦ s.toList.getLast?) heq
  simp at hlast

/-- No image has the name of a copy for a process. -/
theorem isApart_copy (n k : Nat) (pid : UInt32) :
    (ofNumber module n).image.IsApart (LoadState.copyPath (ofNumber module k).image pid) := by
  obtain ⟨dir, hdir⟩ := exists_names module
  refine (hdir n).1.isApart ((hdir k).2.2 pid) fun heq ↦ underscore_notMem_decimal n ?_
  have htext : (Text.decimal n).toList ++ ".dll".toList
      = ((Text.decimal k).toList ++ '_' :: (Text.decimal pid.toNat).toList) ++ ".dll".toList := by
    simpa [baseName, ← String.toList_inj] using heq
  rw [List.append_cancel_right htext]
  simp

end Everywhere

variable {stem extension : List Char}

private theorem isNamed_patch (h : Path.IsNamed stem extension) (n : Nat) :
    Path.IsNamed (stem ++ ".patch_".toList ++ (Text.decimal n).toList) "dll".toList := by
  simpa using isNamed_append h.stem_slash n (List.not_mem_nil : '/' ∉ []) (by decide) (by decide)
    (by decide)

/-- The image of a module's patch. -/
theorem image_ofNumber (h : Path.IsNamed stem extension) (n : Nat) :
    (ofNumber (.named stem extension) n).image
      = .named (stem ++ ".patch_".toList ++ (Text.decimal n).toList) "dll".toList := by
  unfold ofNumber Path.named
  dsimp only
  rw [← Path.named, h.withFileName, h.stem?]
  rw [Path.mk.injEq, ← String.toList_inj]
  simp

/-- The database of a module's patch. -/
theorem database_ofNumber (h : Path.IsNamed stem extension) (n : Nat) :
    (ofNumber (.named stem extension) n).database
      = .named (stem ++ ".patch_".toList ++ (Text.decimal n).toList) "pdb".toList := by
  have hdatabase : (ofNumber (.named stem extension) n).database
      = (ofNumber (.named stem extension) n).image.withExtension "pdb" := by simp only [ofNumber]
  rw [hdatabase, image_ofNumber h, (isNamed_patch h n).withExtension]

/-- The copy of a patch's image for one process. -/
theorem copyPath_ofNumber (h : Path.IsNamed stem extension) (n : Nat) (pid : UInt32) :
    LoadState.copyPath (ofNumber (.named stem extension) n).image pid
      = .named (stem ++ ".patch_".toList ++ (Text.decimal n).toList ++ '_' ::
        (Text.decimal pid.toNat).toList) "dll".toList := by
  unfold LoadState.copyPath Path.insertBeforeExtension
  rw [image_ofNumber h, (isNamed_patch h n).extension?, (isNamed_patch h n).stem?]
  dsimp only
  rw [(isNamed_patch h n).withFileName, Path.named, Path.mk.injEq, ← String.toList_inj]
  simp

private theorem named_eq_append (stem : List Char) (extension : String) :
    Path.named stem extension.toList = Path.append ⟨String.ofList stem⟩ ("." ++ extension) := by
  rw [Path.named, Path.append, Path.mk.injEq, ← String.toList_inj]
  simp

/-- Patches of a module in the working directory write images and databases only. -/
theorem IsOwn.eq_append (h : Path.IsNamed stem extension) {p : Path}
    (hp : IsOwn (.named stem extension) p) :
    ∃ q : Path, p = q.append ".dll" ∨ p = q.append ".pdb" := by
  obtain ⟨n, hp | hp | ⟨pid, hp⟩⟩ := hp
  · rw [image_ofNumber h, named_eq_append] at hp
    exact ⟨_, .inl hp⟩
  · rw [database_ofNumber h, named_eq_append] at hp
    exact ⟨_, .inr hp⟩
  · rw [copyPath_ofNumber h, named_eq_append] at hp
    exact ⟨_, .inl hp⟩

section Choosing

variable {P : FileTree → Prop} {module : Path}

theorem run_makeRoom (path : Path) (t : FileTree) :
    (makeRoom path).run t = if !t.contains path then (true, t)
      else match t.remove? path with
        | some t' => (true, t')
        | none => (false, t) := by
  unfold makeRoom
  simp only [StateT.run_bind, StateT.run_get, pure_bind]
  split
  · rfl
  · cases t.remove? path <;> rfl

theorem run_makeRoomForBoth (p : PatchFiles) (t : FileTree) :
    p.makeRoomForBoth.run t = match (makeRoom p.image).run t with
      | (true, t') => (makeRoom p.database).run t'
      | (false, t') => (false, t') := by
  unfold makeRoomForBoth
  rw [StateT.run_bind]
  generalize (makeRoom p.image).run t = r
  obtain ⟨_ | _, t'⟩ := r <;> rfl

theorem run_nextFrom_succ (fuel n : Nat) (t : FileTree) :
    (nextFrom module (fuel + 1) n).run t = match (ofNumber module n).makeRoomForBoth.run t with
      | (true, t') => ((ofNumber module n, n + 1), t')
      | (false, t') => (nextFrom module fuel (n + 1)).run t' := by
  rw [nextFrom]
  generalize ofNumber module n = files
  rw [StateT.run_bind]
  generalize files.makeRoomForBoth.run t = r
  obtain ⟨_ | _, t'⟩ := r <;> rfl

/-- Making room for a file removes it at most. -/
theorem makeRoom_keeps {path : Path} (hremove : ∀ t t', P t → t.remove? path = some t' → P t')
    {t : FileTree} (ht : P t) : P ((makeRoom path).run t).2 := by
  rw [run_makeRoom]
  split
  · exact ht
  · cases h : t.remove? path with
    | none => exact ht
    | some t' => exact hremove t t' ht h

/-- Making room for the files of a patch removes them at most. -/
theorem makeRoomForBoth_keeps {p : PatchFiles}
    (himage : ∀ t t', P t → t.remove? p.image = some t' → P t')
    (hdatabase : ∀ t t', P t → t.remove? p.database = some t' → P t') {t : FileTree} (ht : P t) :
    P (p.makeRoomForBoth.run t).2 := by
  have hfirst := makeRoom_keeps himage ht
  rw [run_makeRoomForBoth]
  generalize (makeRoom p.image).run t = r at hfirst ⊢
  obtain ⟨_ | _, t'⟩ := r
  · exact hfirst
  · exact makeRoom_keeps hdatabase hfirst

/-- The files of the next patch have a number, and room is made by removing such files. -/
theorem nextFrom_keeps
    (hremove : ∀ t t' p, P t → IsOwn module p → t.remove? p = some t' → P t') (fuel n : Nat)
    {t : FileTree} (ht : P t) :
    (∃ k, ((nextFrom module fuel n).run t).1.1 = ofNumber module k) ∧
      P ((nextFrom module fuel n).run t).2 := by
  induction fuel generalizing n t with
  | zero => exact ⟨⟨n, rfl⟩, ht⟩
  | succ fuel ih =>
    have hboth : P ((ofNumber module n).makeRoomForBoth.run t).2 :=
      makeRoomForBoth_keeps (fun t t' ht ↦ hremove t t' _ ht ⟨n, .inl rfl⟩)
        (fun t t' ht ↦ hremove t t' _ ht ⟨n, .inr (.inl rfl)⟩) ht
    rw [run_nextFrom_succ]
    generalize (ofNumber module n).makeRoomForBoth.run t = r at hboth ⊢
    obtain ⟨_ | _, t'⟩ := r
    · exact ih (n + 1) hboth
    · exact ⟨⟨n, rfl⟩, hboth⟩

/-- The files of the next patch have a number, and room is made by removing such files. -/
theorem next_keeps (hremove : ∀ t t' p, P t → IsOwn module p → t.remove? p = some t' → P t')
    (counter : Nat) {t : FileTree} (ht : P t) :
    (∃ k, ((next module counter).run t).1.1 = ofNumber module k) ∧ P ((next module counter).run t).2 :=
  nextFrom_keeps hremove t.nodes.length counter ht

/-- Numbers of names that were tried are not tried again. -/
theorem le_next (counter : Nat) (t : FileTree) : counter ≤ ((next module counter).run t).1.2 := by
  have hfrom : ∀ fuel n t, n ≤ ((nextFrom module fuel n).run t).1.2 := by
    intro fuel
    induction fuel with
    | zero => exact fun n t ↦ Nat.le_succ n
    | succ fuel ih =>
      intro n t
      rw [run_nextFrom_succ]
      split
      · exact Nat.le_succ n
      · exact Nat.le_of_succ_le (ih _ _)
  exact hfrom _ _ _

end Choosing

end PatchFiles
end LivePatch
