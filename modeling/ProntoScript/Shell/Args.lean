/-
# The arguments of the shell

`ProcessArgs` (`js/src/js.c`, lines 320-484) reads its argument vector twice.  The first
loop looks for the element behind the script file, from which the array `arguments` is
made; the second one follows the options, and chooses the script file.  What is left of
the vector at a place in a loop is a list; an index that ran past the end leaves nothing.

The syntax of the options stands in both loops.  Where the second one gets through, they
have left the same (`firstLoop_eq`), and so the array holds what follows the script file
(`arguments_follow`).
-/

import Mathlib.Tactic.SplitIfs
import ProntoScript.Engine.Utf8

namespace ProntoScript

/-- An element of `argv`: its bytes before the terminating zero. -/
abbrev Arg := List UInt8

/-- `argv[i][0] != '-' || argv[i][1] == '\0'`: the name of a script file. -/
def isScriptFile (arg : Arg) : Bool := arg.getD 0 0 != 0x2D || arg.getD 1 0 == 0

/-- `argv[i][1]`. -/
def optionChar (arg : Arg) : Char := Char.ofNat (arg.getD 1 0).toNat

/-- The first loop: what is left behind the script file. -/
def firstLoop : List Arg → List Arg
  | [] => []
  | arg :: rest =>
      if isScriptFile arg then rest
      else
        match optionChar arg with
        | 'b' | 'c' | 'f' | 'e' | 'm' | 'v' | 'S' =>
            match rest with
            | [] => []
            | _ :: rest => firstLoop rest
        | _ => firstLoop rest

/-- What the outside answers while `ProcessArgs` runs: whether the array, its definition
and its elements get their memory, and what the three calls for `-P` return. -/
structure ArgsReplies where
  newArray : Bool
  defineProperty : Bool
  element : ℕ → Bool
  sealObject : Bool
  newObject : Bool
  setPrototype : Bool

/-- The loop that fills the array from index `j` on: its elements, and whether it got
through. -/
def fillArguments (r : ArgsReplies) : ℕ → List Arg → List JSString × Bool
  | _, [] => ([], true)
  | j, arg :: rest =>
      match inflateString arg with
      | none => ([], false)
      | some str =>
          if r.element j then
            let q := fillArguments r (j + 1) rest
            (str :: q.1, q.2)
          else ([], false)

/-- What the shell does on the way: a setting it changes, a script it runs. -/
inductive ShellAction
  | setVersion (version : Arg)
  | reportWarnings (on : Bool)
  | toggleStrict
  | toggleXml
  | newGlobal
  | branchLimit (limit : Arg)
  | stackChunkSize (size : Arg)
  | modulePath (path : Arg)
  | process (filename : Option Arg)
  | evaluate (script : Arg)
  | compileOnly
  | maxStackSize (size : Arg)
deriving DecidableEq

/-- The state of the second loop: whether `-P` has put a new global object in place,
whether the shell is to be interactive, and what was done, in order. -/
structure ShellState where
  newGlobal : Bool
  isInteractive : Bool
  actions : List ShellAction
deriving DecidableEq

namespace ShellState

/-- Before the second loop. -/
def start : ShellState := ⟨false, true, []⟩

/-- A setting is changed. -/
def act (s : ShellState) (a : ShellAction) : ShellState := { s with actions := s.actions ++ [a] }

/-- A script is run, or none is to be: the shell is not interactive. -/
def run (s : ShellState) (a : ShellAction) : ShellState :=
  { s with isInteractive := false, actions := s.actions ++ [a] }

end ShellState

/-- How the second loop ends: at a script file, if any, and with what is left; with a
return from `ProcessArgs`; or with a null pointer handed to `atoi`. -/
inductive ScanEnd
  | scanned (script : Option Arg) (rest : List Arg)
  | usage
  | notSealed
  | nullValue
deriving DecidableEq

/-- The second loop. -/
def secondLoop (r : ArgsReplies) : ShellState → List Arg → ShellState × ScanEnd
  | s, [] => (s, .scanned none [])
  | s, arg :: rest =>
      if isScriptFile arg then ({ s with isInteractive := false }, .scanned (some arg) rest)
      else
        match optionChar arg with
        | 'v' =>
            match rest with
            | [] => (s, .usage)
            | version :: rest => secondLoop r (s.act (.setVersion version)) rest
        | 'w' => secondLoop r (s.act (.reportWarnings true)) rest
        | 'W' => secondLoop r (s.act (.reportWarnings false)) rest
        | 's' => secondLoop r (s.act .toggleStrict) rest
        | 'x' => secondLoop r (s.act .toggleXml) rest
        | 'P' =>
            if s.newGlobal then secondLoop r s rest
            else if r.sealObject && r.newObject && r.setPrototype then
              secondLoop r { s.act .newGlobal with newGlobal := true } rest
            else (s, .notSealed)
        | 'b' =>
            match rest with
            | [] => (s, .nullValue)
            | limit :: rest => secondLoop r (s.act (.branchLimit limit)) rest
        | 'c' =>
            match rest with
            | [] => (s, .nullValue)
            | size :: rest => secondLoop r (s.act (.stackChunkSize size)) rest
        | 'm' =>
            match rest with
            | [] => (s, .usage)
            | path :: rest => secondLoop r (s.act (.modulePath path)) rest
        | 'f' =>
            match rest with
            | [] => (s, .usage)
            | filename :: rest => secondLoop r (s.run (.process (some filename))) rest
        | 'e' =>
            match rest with
            | [] => (s, .usage)
            | script :: rest => secondLoop r (s.run (.evaluate script)) rest
        | 'C' => secondLoop r (s.run .compileOnly) rest
        | 'S' =>
            match rest with
            | [] => (s, .usage)
            | size :: rest => secondLoop r (s.act (.maxStackSize size)) rest
        | _ => (s, .usage)

/-- What `ProcessArgs` does: the array it builds, what its second loop did, and how that
ended; `none` where it returns before the loop. -/
structure ArgsRun where
  arguments : List JSString
  actions : List ShellAction
  ended : Option ScanEnd
deriving DecidableEq

/-- `if (filename || isInteractive) Process(cx, obj, filename)`, where the second loop gets
there. -/
def ScanEnd.last (isInteractive : Bool) : ScanEnd → List ShellAction
  | .scanned script _ => if script.isSome || isInteractive then [.process script] else []
  | _ => []

/-- `ProcessArgs`. Source: lines 312-484 of `js/src/js.c`. -/
def processArgs (r : ArgsReplies) (argv : List Arg) : ArgsRun :=
  if !(r.newArray && r.defineProperty) then ⟨[], [], none⟩
  else
    let filled := fillArguments r 0 (firstLoop argv)
    if !filled.2 then ⟨filled.1, [], none⟩
    else
      let q := secondLoop r .start argv
      ⟨filled.1, q.1.actions ++ q.2.last q.1.isInteractive, some q.2⟩

/-- The array holds what follows the script file, in order, and nothing if there is none:
what the first loop is meant to find for the second one. -/
def ArgsRun.FollowsScript (run : ArgsRun) : Prop :=
  match run.ended with
  | some (.scanned (some _) rest) => run.arguments.map some = rest.map inflateString
  | _ => run.arguments = []

/-- The second loop ends at a script file or at the end of the vector. -/
def ArgsRun.GetsThrough (run : ArgsRun) : Prop :=
  ∃ script rest, run.ended = some (.scanned script rest)

section Loops

variable {r : ArgsReplies} {s : ShellState} {arg value : Arg} {argv rest : List Arg}
  {script : Option Arg} {j : ℕ} {strs : List JSString}

/-- The first loop stops behind the script file. -/
theorem firstLoop_script (h : isScriptFile arg = true) : firstLoop (arg :: rest) = rest := by
  rw [firstLoop.eq_def]
  simp only [h, if_true]

/-- The first loop skips an option with its value. -/
theorem firstLoop_value (h : isScriptFile arg ≠ true)
    (hc : optionChar arg ∈ ['v', 'b', 'c', 'm', 'f', 'e', 'S']) :
    firstLoop (arg :: value :: rest) = firstLoop rest := by
  rw [firstLoop.eq_def]
  simp only [if_neg h]
  split
  case h_8 => simp_all
  all_goals rfl

/-- The first loop skips an option without one. -/
theorem firstLoop_flag (h : isScriptFile arg ≠ true)
    (hc : optionChar arg ∈ ['w', 'W', 's', 'x', 'P', 'C']) :
    firstLoop (arg :: rest) = firstLoop rest := by
  rw [firstLoop.eq_def]
  simp only [if_neg h]
  split <;> simp_all

/-- **The loops leave the same** where the second one gets through: nothing if it found no
script file, and else what follows it.  The induction is on the second loop, one case for
each of its options. -/
theorem firstLoop_eq (h : (secondLoop r s argv).2 = .scanned script rest) :
    firstLoop argv = rest ∧ (script = none → rest = []) := by
  fun_induction secondLoop r s argv
  case case1 =>
    cases h
    exact ⟨rfl, fun _ => rfl⟩
  case case2 hscript =>
    cases h
    exact ⟨firstLoop_script hscript, by rintro ⟨⟩⟩
  case case4 hopt hchar _ _ ih | case13 hopt hchar _ _ ih | case15 hopt hchar _ _ ih
      | case17 hopt hchar _ _ ih | case19 hopt hchar _ _ ih | case21 hopt hchar _ _ ih
      | case24 hopt hchar _ _ ih =>
    rw [firstLoop_value hopt (by simp [hchar])]
    exact ih h
  case case5 hopt hchar ih | case6 hopt hchar ih | case7 hopt hchar ih | case8 hopt hchar ih
      | case9 hopt hchar _ ih | case10 hopt hchar _ _ ih | case22 hopt hchar ih =>
    rw [firstLoop_flag hopt (by simp [hchar])]
    exact ih h
  -- the second loop does not get through
  all_goals cases h

/-- An array that could be filled holds the strings of what it was filled with. -/
theorem fillArguments_eq (h : (fillArguments r j argv).2 = true) :
    (fillArguments r j argv).1.map some = argv.map inflateString := by
  induction argv generalizing j with
  | nil => rfl
  | cons arg argv ih =>
      rw [fillArguments] at h ⊢
      cases hstr : inflateString arg with
      | none =>
          rw [hstr] at h
          cases h
      | some str =>
          rw [hstr] at h
          dsimp only at h ⊢
          split_ifs at h ⊢ with hmem
          rw [List.map_cons, List.map_cons, hstr, ih h]

/-- A run that gets through has filled its array. -/
theorem processArgs_through (h : (processArgs r argv).ended = some (.scanned script rest)) :
    (processArgs r argv).arguments = (fillArguments r 0 (firstLoop argv)).1 ∧
      (fillArguments r 0 (firstLoop argv)).2 = true ∧
      (secondLoop r .start argv).2 = .scanned script rest := by
  unfold processArgs at h ⊢
  dsimp only at h ⊢
  split_ifs at h ⊢ with hnew hfilled
  exact ⟨rfl, by simpa using hfilled, Option.some.inj h⟩

end Loops

/-- **The array holds what follows the script file**, whatever the options and their
values are, wherever the second loop gets through: the first loop passes over the same
options and values as the second.  Source: `ProcessArgs`, the first loop and the array
(lines 320-366) and the second loop (lines 368-484) of `js/src/js.c`. -/
theorem arguments_follow (r : ArgsReplies) (argv : List Arg)
    (h : (processArgs r argv).GetsThrough) : (processArgs r argv).FollowsScript := by
  obtain ⟨script, rest, hended⟩ := h
  obtain ⟨hrun, hfill, hscan⟩ := processArgs_through hended
  obtain ⟨hfirst, hnone⟩ := firstLoop_eq hscan
  have harguments := fillArguments_eq hfill
  rw [← hrun, hfirst] at harguments
  unfold ArgsRun.FollowsScript
  rw [hended]
  cases script with
  | some script => exact harguments
  | none =>
      rw [hnone rfl] at harguments
      exact List.map_eq_nil_iff.1 harguments

/-- Everything gets its memory, and `-P` its new global object. -/
def ArgsReplies.granted : ArgsReplies := ⟨true, true, fun _ => true, true, true, true⟩

/-- `js -m a -w -e -b run -x`: a value that looks like a script file, and one that looks
like an option. -/
theorem arguments_follow_run :
    (processArgs .granted [[0x2D, 0x6D], [0x61], [0x2D, 0x77], [0x2D, 0x65], [0x2D, 0x62],
      [0x72, 0x75, 0x6E], [0x2D, 0x78]]).FollowsScript :=
  arguments_follow _ _ ⟨some [0x72, 0x75, 0x6E], [[0x2D, 0x78]], by decide⟩

/-- Every option `-b` and `-c` of the vector, wherever it stands, is followed by a value. -/
def NumbersFollow (argv : List Arg) : Prop :=
  ∀ before arg, argv = before ++ [arg] → isScriptFile arg = true ∨ optionChar arg ∉ ['b', 'c']

/-- **`js -P a x` where the global object cannot be sealed**: the second loop returns
before it gets to the script file, and `x` is in the array. -/
theorem arguments_without_script : ¬∀ (r : ArgsReplies) (argv : List Arg), NumbersFollow argv →
    (processArgs r argv).ended ≠ some .usage → (processArgs r argv).FollowsScript := by
  intro hclaim
  have hnumbers : NumbersFollow [[0x2D, 0x50], [0x61], [0x78]] := by
    intro before arg heq
    have hlast := congrArg List.getLast? heq
    rw [List.getLast?_concat] at hlast
    cases hlast
    exact .inl (by decide)
  have hfollows := hclaim { ArgsReplies.granted with sealObject := false } _ hnumbers (by decide)
  have harguments : (processArgs { ArgsReplies.granted with sealObject := false }
      [[0x2D, 0x50], [0x61], [0x78]]).arguments = [[0x78]] := by decide
  exact List.cons_ne_nil _ _ (harguments.symm.trans hfollows)

end ProntoScript
