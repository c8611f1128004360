import LivePatch.Proofs.Attached.Preserving

/-!
# Identity of processes

No work changes whose process it is, whatever the process refuses and whatever its agent answers.
So a session keeps the identifiers of its processes, which mappings and hooks are found by.
-/

namespace LivePatch

namespace Target

/-- The process has an identifier. -/
def Is (pid : UInt32) (t : Target) : Prop := t.pid = pid

variable {pid : UInt32}

theorem is_ignoresMemory : IgnoresMemory (Is pid) where
  counted := fun _ ht ↦ ht
  flushed := fun ht ↦ ht
  suspended := fun _ ht ↦ ht
  changed := fun _ _ ht ↦ ht
  remapped := fun _ _ ht ↦ ht

theorem is_ignoresThreads : IgnoresThreads (Is pid) := is_ignoresMemory.toIgnoresThreads

theorem is_allowsWrites : AllowsWrites (Is pid) where
  toIgnoresCalls := is_ignoresThreads.toIgnoresCalls
  written := fun _ _ _ ht ↦ ht

theorem is_allowsPatch (registry : Registry) (token : Token) :
    AllowsPatch pid registry token (Is pid) where
  toIgnoresThreads := is_ignoresThreads
  owner := fun ht ↦ ht
  write := fun {image} _ rva bytes ↦ is_allowsWrites.write image rva bytes

theorem is_allowsEntry (registry : Registry) (token : Token) :
    AllowsEntry pid registry token (Is pid) (Is pid) where
  toAllowsCaves := is_ignoresMemory.allowsCaves fun _ ↦ is_allowsWrites.writeMemory _ _
  patchBefore := is_allowsPatch registry token
  patch := is_allowsPatch registry token
  later := fun ht ↦ ht

end Target

namespace AttachedProcess

variable {pid : UInt32}

/-- The process has an identifier. -/
def Is (pid : UInt32) (p : AttachedProcess) : Prop := p.pid = pid

theorem is_onTarget {α : Type} {act : TargetM α} (h : Keeps (Target.Is pid) act) :
    Keeps (Is pid) (onTarget act) :=
  Keeps.of_run fun p hp ↦ h.run (s := p.target) hp

theorem is_tell (files : FileTree) (c : Command) : Keeps (Is pid) (tell files c) :=
  Target.is_ignoresMemory.tell files c

theorem is_loadPatch (files : FileTree) (path : Path) : Keeps (Is pid) (loadPatch files path) :=
  Target.is_ignoresMemory.loadPatch files path

theorem is_mark (start : UInt64) : Keeps (Is pid) (mark start) :=
  Keeps.modify fun p hp ↦ by
    split
    · exact hp
    · exact hp

theorem is_suspended {α : Type} {act : ProcessM α} (h : Keeps (Is pid) act) :
    Keeps (Is pid) (suspended act) :=
  (is_onTarget Target.is_ignoresThreads.suspend).bind fun _ ↦
    h.ensuring (is_onTarget Target.is_ignoresThreads.resume)

end AttachedProcess

variable {pid : UInt32}

theorem HookRecord.is_callIn (r : HookRecord) (files : FileTree) (base : UInt64) :
    Keeps (AttachedProcess.Is pid) (r.callIn files base) := by
  have h : Keeps (fun p : AttachedProcess ↦ Target.Is pid p.target) (r.callIn files base) :=
    r.keeps_callIn_target files base
  exact h

theorem FunctionRedirection.is_install (r : FunctionRedirection) (existing image : Mapping) :
    Keeps (Target.Is pid) (r.install existing image) := by
  have hwrites : Target.AllowsWrites (Target.Is pid) := Target.is_allowsWrites
  have hwrite := hwrites.write existing
  unfold install
  refine (Keeps.lift _).bind fun target ↦ ?_
  refine Keeps.bind (Keeps.forM fun thunk _ ↦ (Keeps.lift _).bind fun source ↦
    (Keeps.lift _).bind fun jump ↦ hwrite _ _) fun _ ↦ (Keeps.lift _).bind fun start ↦ ?_
  split
  · exact (Keeps.lift _).bind fun code ↦ hwrite _ _
  · exact (Keeps.lift _).bind fun padding ↦ (Keeps.lift _).bind fun source ↦
      (Keeps.lift _).bind fun jump ↦ (hwrite _ _).bind fun _ ↦ hwrite _ _

end LivePatch
