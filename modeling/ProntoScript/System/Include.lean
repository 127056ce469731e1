/-
# `System.include` and the failures of its scripts

`Process` returns nothing, so `System_Include` (`js/src/ext/pssystem.c`, lines 101-104)
returns `JS_TRUE` whenever `stat` has found the file.  Where the file does not open or
compile, or its script ends in an exception, the exception stays pending and the
including script goes on as if the library had loaded.

`Engine.Propagates` says of a step what an include should do instead, up to the outermost
script, and `Engine.includes_propagate_iff` that this comes down to includes of scripts
that do not fail.
-/

import ProntoScript.System.Engine

namespace ProntoScript

open Transition (Run Guarded Obeying run_guarded_iff_obeying)

/-- The file opens and compiles. -/
def ScriptFile.loads : ScriptFile → Bool
  | .compiles _ => true
  | _ => false

namespace Engine

/-- A failure is reported and gives an exit code other than 0. -/
def Reported (e e' : Engine) : Prop := e.reports < e'.reports ∧ e'.exitCode ≠ 0

/-- An include of a file that is not found, does not open or does not compile fails with
an exception, and so does one whose script does; a failure of the outermost script is
reported. -/
def Propagates (e : Engine) (l : EngineLabel) (e' : Engine) : Prop :=
  match l with
  | .process file => file.loads = false → Reported e e'
  | .op (.systemInclude none) => e'.raises = true
  | .op (.systemInclude (some file)) => file.loads = false → e'.raises = true
  | .ended =>
      match e.stack with
      | .script .toplevel :: _ => e.raises = true → Reported e e'
      | .script .included :: _ => e.raises = true → e'.raises = true
      | _ => True
  | _ => True

/-- The file of an include that is found opens and compiles, and its script does not end
in an exception: what `Process` does not tell `System_Include` of. -/
def IncludesLoad (e : Engine) : EngineLabel → Prop
  | .op (.systemInclude (some file)) => file.loads = true
  | .ended =>
      match e.stack with
      | .script .included :: _ => e.raises = false
      | _ => True
  | _ => True

section

variable {e e' : Engine} {l : EngineLabel}

/-- The outermost script does report its failures. -/
theorem reported_process {file : ScriptFile} (h : file.loads = false) :
    Reported e (e.process file) := by
  cases file with
  | cannotOpen =>
      have hcode : EXITCODE_FILE_NOT_FOUND ≠ 0 := by decide
      exact ⟨Nat.lt_succ_self _, hcode⟩
  | doesNotCompile =>
      have hcode : EXITCODE_RUNTIME_ERROR ≠ 0 := by decide
      refine ⟨?_, hcode⟩
      show e.reports < e.reports + 1 + _
      omega
  | compiles newLock => cases h

/-- A failure of the outermost script is reported. -/
theorem reported_toplevel {rest : List CallFrame} (h : e.raises = true) :
    Reported e (e.failScript .toplevel rest) := by
  unfold raises at h
  rw [Bool.and_eq_true] at h
  refine ⟨?_, ?_⟩
  · show e.reports < if e.pending.isSome then e.reports + 1 else e.reports
    rw [if_pos h.2]
    omega
  · show (if e.pending.isSome then EXITCODE_RUNTIME_ERROR else e.exitCode) ≠ 0
    rw [if_pos h.2]
    decide

/-- An include that finds its file never fails at once. -/
theorem raises_systemInclude {file : ScriptFile} (h : e.failing = false) :
    (e.systemInclude (some file)).raises = false := by
  have hpost : ∀ e₁ : Engine, e₁.failing = e.failing → e₁.raises = false := by
    intro e₁ h₁
    rw [raises, h₁, h]
    rfl
  cases file with
  | cannotOpen => exact hpost _ rfl
  | doesNotCompile => exact hpost _ rfl
  | compiles newLock =>
      refine hpost _ ?_
      show (e.enterScript .included newLock).failing = _
      unfold enterScript
      split_ifs <;> rfl

/-- A step propagates the failures of its include exactly if there are none. -/
theorem propagates_iff (h : Step e l e') : Propagates e l e' ↔ IncludesLoad e l := by
  cases l with
  | process file =>
      obtain ⟨-, rfl⟩ := step_process h
      exact iff_of_true reported_process trivial
  | op o =>
      obtain ⟨hruns, ho⟩ := step_op h
      cases o with
      | systemInclude found =>
          cases ho
          cases found with
          | none => exact iff_of_true rfl trivial
          | some file =>
              have hno : (e.systemInclude (some file)).raises = false :=
                raises_systemInclude (head_of_scriptRuns hruns).1
              show (file.loads = false → Engine.raises _ = true) ↔ file.loads = true
              rw [hno]
              simp
      | _ => exact Iff.rfl
  | ended =>
      dsimp only [Propagates, IncludesLoad]
      obtain ⟨caller, rest, hstack, hend⟩ | ⟨d, inv, rest, hstack, -⟩ |
        ⟨s, i, rest, suite, hstack, -⟩ := step_ended h
      · rw [hstack]
        cases caller with
        | toplevel =>
            refine iff_of_true (fun hr => ?_) trivial
            obtain ⟨-, rfl⟩ | ⟨hf, -⟩ := hend
            · exact reported_toplevel hr
            · rw [raises, hf] at hr
              cases hr
        | included =>
            have hno : e'.raises = false := by
              obtain ⟨-, rfl⟩ | ⟨hf, rfl⟩ := hend
              · rfl
              · show (e.failing && e.pending.isSome) = false
                rw [hf]
                rfl
            show (e.raises = true → e'.raises = true) ↔ e.raises = false
            rw [hno]
            simp
        | native => exact Iff.rfl
      · rw [hstack]
      · rw [hstack]
  | _ => exact Iff.rfl

/-- **The failures of includes.**  In a run every include of a file that does not open,
does not compile or ends in an exception fails, up to the outermost script, which reports
its failure with an exit code other than 0, exactly if every include that finds its file
opens and compiles it and its script does not end in an exception.  Source:
`System_Include` (lines 101-104 of `js/src/ext/pssystem.c`) calls `Process` (lines 167-231
of `js/src/js.c`), which returns nothing, and returns `JS_TRUE`. -/
theorem includes_propagate_iff {ls : List EngineLabel} :
    Run (Guarded IncludesLoad Step) start ls e ↔ Run (Obeying Propagates Step) start ls e :=
  run_guarded_iff_obeying (R := Propagates) (J := fun _ => True) (fun _ _ _ _ _ => trivial)
    (fun _ _ _ _ hst => propagates_iff hst) trivial

/-- A script includes a file that does not compile, and goes on. -/
theorem include_goes_on :
    ¬ ∀ ls e l e', Run Step start ls e → Step e l e' → Propagates e l e' := by
  intro hclaim
  have hrun : ∃ e e' : Engine, Run Step start [.process (.compiles true)] e ∧
      Step e (.op (.systemInclude (some .doesNotCompile))) e' ∧ e'.scriptRuns = true :=
    ⟨_, _, run_of_foldlM rfl, rfl, rfl⟩
  obtain ⟨e, e', hrun, hs, hgoes⟩ := hrun
  have hfails : e'.raises = true := hclaim _ e _ e' hrun hs rfl
  rw [raises, (head_of_scriptRuns hgoes).1] at hfails
  cases hfails

end

end Engine
end ProntoScript
