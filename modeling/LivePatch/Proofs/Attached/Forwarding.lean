import LivePatch.Proofs.Attached.Informing
import LivePatch.Proofs.Text.Utf8

/-!
# Lossless forwarding

The pieces of a text are the text again when they are put together. None of them is empty, none is
too long for one command, and a piece that another one follows had no room left for a character of
any width. An agent is sent the pieces from the first on, up to the first that it does not
acknowledge.
-/

namespace LivePatch

namespace Output

/-- Number of octets that characters take. -/
def weight (text : List Char) : Nat := text.foldr (fun c n ↦ width c + n) 0

theorem weight_cons (c : Char) (text : List Char) : weight (c :: text) = width c + weight text := rfl

/-- The octets of a text are those that its characters take. -/
theorem utf8ByteSize_ofList (text : List Char) :
    (String.ofList text).utf8ByteSize = weight text := by
  have hsize : (String.ofList text).utf8ByteSize = (Text.Utf8.octets text).length :=
    Text.Utf8.size_ofList text
  rw [hsize]
  induction text with
  | nil => rfl
  | cons c rest ih =>
    rw [Text.Utf8.octets, List.flatMap_cons, List.length_append, ih (Text.Utf8.size_ofList rest),
      weight_cons, width, String.length_utf8EncodeChar]

/-! ### One beginning -/

/-- A beginning and the rest behind it are the text. -/
theorem append_splitFitting (room : Nat) (text : List Char) :
    (splitFitting room text).1 ++ (splitFitting room text).2 = text := by
  induction text generalizing room with
  | nil => rfl
  | cons c rest ih =>
    unfold splitFitting
    split
    · exact congrArg (c :: ·) (ih _)
    · rfl

/-- A beginning fits. -/
theorem weight_splitFitting_le (room : Nat) (text : List Char) :
    weight (splitFitting room text).1 ≤ room := by
  induction text generalizing room with
  | nil => exact Nat.zero_le _
  | cons c rest ih =>
    unfold splitFitting
    split
    next hfits =>
      have := ih (room - width c)
      rw [weight_cons]
      omega
    · exact Nat.zero_le _

/-- No character takes more than four octets, so a beginning that leaves a rest leaves less room
than that. -/
theorem lt_weight_splitFitting {room : Nat} {text : List Char}
    (h : (splitFitting room text).2 ≠ []) : room < weight (splitFitting room text).1 + 4 := by
  induction text generalizing room with
  | nil => exact absurd rfl h
  | cons c rest ih =>
    have hwidth : width c ≤ 4 := c.utf8Size_le_four
    unfold splitFitting at h ⊢
    split
    next hfits =>
      rw [if_pos hfits] at h
      have := ih h
      rw [weight_cons]
      omega
    next hfits => exact Nat.lt_of_lt_of_le (by omega) (Nat.le_add_left 4 _)

/-! ### All pieces -/

/-- The pieces of a text put together. -/
theorem flatten_pieces (text : List Char) : (pieces text).flatten = text := by
  fun_induction pieces text with
  | case1 => rfl
  | case2 c rest split ih => rw [List.flatten_cons, ih, List.cons_append, append_splitFitting]

theorem pieces_eq_nil_iff {text : List Char} : pieces text = [] ↔ text = [] := by
  cases text <;> simp [pieces]

/-- What is sent of a text at once: something, and no more than fits in a command. -/
theorem size_of_mem_pieces {text piece : List Char} (h : piece ∈ pieces text) :
    piece ≠ [] ∧ weight piece ≤ pieceSize := by
  fun_induction pieces text with
  | case1 => cases h
  | case2 c rest split ih =>
    rcases List.mem_cons.mp h with rfl | h
    · have hwidth : width c ≤ 4 := c.utf8Size_le_four
      have hfits : weight split.1 ≤ pieceSize - width c := weight_splitFitting_le _ rest
      rw [weight_cons]
      exact ⟨List.cons_ne_nil _ _, by unfold pieceSize at hfits ⊢; omega⟩
    · exact ih h

/-- A piece that another one follows is as long as characters let it be. -/
theorem size_of_mem_dropLast_pieces {text piece : List Char} (h : piece ∈ (pieces text).dropLast) :
    pieceSize < weight piece + 4 := by
  fun_induction pieces text with
  | case1 => cases h
  | case2 c rest split ih =>
    by_cases hrest : split.2 = []
    · rw [hrest, pieces] at h
      cases h
    · rw [List.dropLast_cons_of_ne_nil (pieces_eq_nil_iff.not.mpr hrest)] at h
      rcases List.mem_cons.mp h with rfl | h
      · have hroom : pieceSize - width c < weight split.1 + 4 := lt_weight_splitFitting hrest
        rw [weight_cons]
        omega
      · exact ih h

/-- The pieces of a text, as texts. -/
def parts (text : String) : List String := (pieces text.toList).map String.ofList

theorem join_parts (text : String) : String.join (parts text) = text := by
  rw [← String.toList_inj, String.toList_join, parts, List.flatMap_map]
  simp only [String.toList_ofList, List.flatMap_id']
  exact flatten_pieces text.toList

theorem size_of_mem_parts (text : String) :
    ∀ part ∈ parts text, part ≠ "" ∧ part.utf8ByteSize ≤ 4096 := by
  rw [parts, List.forall_mem_map]
  intro piece hpiece
  obtain ⟨hsome, hfits⟩ := size_of_mem_pieces hpiece
  rw [utf8ByteSize_ofList]
  exact ⟨fun hnone ↦ hsome (by simpa using congrArg String.toList hnone), hfits⟩

theorem size_of_mem_dropLast_parts (text : String) :
    ∀ part ∈ (parts text).dropLast, 4093 ≤ part.utf8ByteSize := by
  rw [parts, ← List.map_dropLast, List.forall_mem_map]
  intro piece hpiece
  have hfull := size_of_mem_dropLast_pieces hpiece
  rw [utf8ByteSize_ofList]
  unfold pieceSize at hfull
  omega

/-- Forwarding a text tells the agent its parts. -/
theorem forward_eq (files : FileTree) (text : String) :
    forward files text = (parts text).forM fun part ↦
      AttachedProcess.tell files (.logOutput part) := by
  change _ = forM (parts text) _
  rw [parts, List.forM_map]
  rfl

end Output

/-! ### Acknowledgements -/

/-- Why a reaction is no acknowledgement of a command. -/
def Reaction.refusal? (c : Command) : Reaction → Option Cause
  | .serves | .answers .ack => none
  | .answers reply => some (.unexpectedReply reply c)
  | .breaks => some .brokenPipe

namespace AttachedProcess

/-- Why a text is not acknowledged that is sent behind a number of other texts. -/
def refusal? (p : AttachedProcess) (before : Nat) (text : String) : Option Cause :=
  (p.agent.reacts (.logOutput text) (p.agent.count .logOutput + before)).refusal? (.logOutput text)

/-- Whether texts are acknowledged that are sent one after the other. -/
def Acknowledges (p : AttachedProcess) (texts : List String) : Prop :=
  ∀ i text, texts[i]? = some text → p.refusal? i text = none

/-- A process whose agent was sent one more text. -/
def told (p : AttachedProcess) (text : String) : AttachedProcess :=
  { p with agent := p.agent.noted p.target (.logOutput text) }

/-- A text that was sent counts among those before the next. -/
theorem refusal?_told (p : AttachedProcess) (text next : String) (i : Nat) :
    (p.told text).refusal? i next = p.refusal? (i + 1) next := by
  have hcount : (p.told text).agent.count .logOutput = p.agent.count .logOutput + 1 := by
    simp [told, Agent.count, Agent.noted, Command.name]
  rw [refusal?, refusal?, hcount, Nat.add_assoc, Nat.add_comm 1 i]
  rfl

theorem acknowledges_cons_iff {p : AttachedProcess} {text : String} {texts : List String} :
    p.Acknowledges (text :: texts) ↔ p.refusal? 0 text = none ∧ (p.told text).Acknowledges texts := by
  constructor
  · intro h
    refine ⟨h 0 text rfl, fun i next hnext ↦ ?_⟩
    rw [refusal?_told]
    exact h (i + 1) next hnext
  · rintro ⟨hfirst, hrest⟩ i next hnext
    cases i with
    | zero =>
      obtain rfl : text = next := Option.some.inj hnext
      exact hfirst
    | succ i =>
      rw [← refusal?_told p text]
      exact hrest i next hnext

/-- What telling an agent a text comes to. -/
theorem run_tell_logOutput (files : FileTree) (text : String) (p : AttachedProcess) :
    (tell files (.logOutput text)).run p = (match p.refusal? 0 text with
      | none => .ok ()
      | some cause => .error (.error cause.toError), p.told text) := by
  have hrun := run_tell_of_isQuiet files (c := .logOutput text) rfl p
  refine Prod.ext ?_ hrun
  simp only [refusal?, Nat.add_zero, tell, exchange, run_bind, run_get, run_set, Command.name]
  cases p.agent.reacts (.logOutput text) (p.agent.count .logOutput) with
  | serves => rfl
  | answers reply => cases reply <;> rfl
  | breaks => rfl

/-- Texts that were sent count among those before the next. -/
theorem refusal?_foldl_told (p : AttachedProcess) (texts : List String) (next : String) (i : Nat) :
    (texts.foldl told p).refusal? i next = p.refusal? (texts.length + i) next := by
  induction texts generalizing p with
  | nil => rw [List.foldl_nil, List.length_nil, Nat.zero_add]
  | cons text texts ih =>
    rw [List.foldl_cons, ih, refusal?_told, List.length_cons, Nat.add_right_comm]

/-- The commands that an agent was sent, with texts behind them. -/
theorem commands_foldl_told (p : AttachedProcess) (texts : List String) :
    (texts.foldl told p).agent.sent.map Sent.command
      = p.agent.sent.map Sent.command ++ texts.map .logOutput := by
  induction texts generalizing p with
  | nil => exact (List.append_nil _).symm
  | cons text texts ih =>
    rw [List.foldl_cons, ih, told, Agent.noted, List.map_append, List.append_assoc]
    rfl

/-- Telling an agent several texts succeeds exactly if it acknowledges them all. -/
theorem run_forM_tell_eq_ok_iff (files : FileTree) {texts : List String} {p p' : AttachedProcess} :
    (texts.forM fun text ↦ tell files (.logOutput text)).run p = (.ok ⟨⟩, p') ↔
      p.Acknowledges texts ∧ p' = texts.foldl told p := by
  induction texts generalizing p with
  | nil =>
    constructor
    · intro hrun
      cases hrun
      exact ⟨nofun, rfl⟩
    · rintro ⟨-, rfl⟩
      rfl
  | cons text texts ih =>
    change (tell files (.logOutput text) >>= fun _ ↦ texts.forM _).run p = _ ↔ _
    rw [run_bind, run_tell_logOutput, acknowledges_cons_iff, List.foldl_cons, and_assoc, ← ih]
    cases p.refusal? 0 text with
    | none => exact ⟨fun h ↦ ⟨rfl, h⟩, And.right⟩
    | some cause => exact ⟨nofun, fun h ↦ nomatch h.1⟩

end AttachedProcess

/-- Forwarding a text comes to an end. What is sent are consecutive pieces of the text from its
beginning, each of them something of at most 4096 octets, and all but the last of the text of at
least 4093. If all of them are acknowledged, they are the whole text. Otherwise the first that is
not is the last that is sent, and the error is why it is not. -/
theorem Output.forwarded_output_is_lossless (files : FileTree) (text : String)
    (p : AttachedProcess) :
    ∃ told kept : List String, ∃ p',
      String.join (told ++ kept) = text ∧
      (∀ part ∈ told ++ kept, part ≠ "" ∧ part.utf8ByteSize ≤ 4096) ∧
      (∀ part ∈ (told ++ kept).dropLast, 4093 ≤ part.utf8ByteSize) ∧
      p'.agent.sent.map Sent.command = p.agent.sent.map Sent.command ++ told.map .logOutput ∧
      ((forward files text).run p = (.ok (), p') ∧ p.Acknowledges told ∧ kept = [] ∨
        ∃ before last cause, (forward files text).run p = (.error (.error cause.toError), p') ∧
          told = before ++ [last] ∧ p.Acknowledges before ∧
          p.refusal? before.length last = some cause) := by
  have hjoin := join_parts text
  have hsizes := size_of_mem_parts text
  have hfull := size_of_mem_dropLast_parts text
  rw [forward_eq]
  generalize parts text = texts at *
  obtain ⟨result, p', hrun⟩ : ∃ result p', (texts.forM fun part ↦
      AttachedProcess.tell files (.logOutput part)).run p = (result, p') := ⟨_, _, rfl⟩
  cases result with
  | ok =>
    obtain ⟨hall, rfl⟩ := (AttachedProcess.run_forM_tell_eq_ok_iff files).mp hrun
    refine ⟨texts, [], _, ?_, ?_, ?_, AttachedProcess.commands_foldl_told p texts,
      .inl ⟨hrun, hall, rfl⟩⟩
    all_goals rwa [List.append_nil]
  | error stop =>
    obtain ⟨before, last, kept, u, rfl, hbefore, hlast⟩ := run_forM_eq_error_iff.mp hrun
    obtain ⟨hall, rfl⟩ := (AttachedProcess.run_forM_tell_eq_ok_iff files).mp hbefore
    rw [AttachedProcess.run_tell_logOutput, AttachedProcess.refusal?_foldl_told] at hlast
    cases hrefusal : p.refusal? before.length last with
    | none => rw [Nat.add_zero, hrefusal] at hlast; cases hlast
    | some cause =>
      rw [Nat.add_zero, hrefusal] at hlast
      obtain ⟨hstop, rfl⟩ := Prod.mk.inj hlast
      obtain rfl := Except.error.inj hstop
      have hsplit : before ++ [last] ++ kept = before ++ last :: kept := by simp
      refine ⟨before ++ [last], kept, _, hsplit ▸ hjoin, hsplit ▸ hsizes, hsplit ▸ hfull, ?_,
        .inr ⟨before, last, cause, hrun, rfl, hall, hrefusal⟩⟩
      rw [← AttachedProcess.commands_foldl_told, List.foldl_append]
      rfl

end LivePatch
