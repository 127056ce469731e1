/-
# The path of an include

`System_Include` (`js/src/ext/pssystem.c`, lines 62-104) puts the name, and then the module
path with the name behind it, into a buffer of 255 bytes with `strlcpy` and `strlcat`, and
asks `stat` whether the file exists.  Only the path in the buffer is looked at: where it
does not fit it is cut off, and a file that happens to have the shorter name is executed.
`Process` takes the path `-` for the standard input.

`includeMeant` is what an include is for; `include_meant_iff` says for which names, module
paths and files the code does that.
-/

import Mathlib.Tactic.SplitIfs
import ProntoScript.Engine.Encoding
import ProntoScript.JSUnit.Suite

namespace ProntoScript

/-- `strlcpy(dst, src, size)`: the string in `dst` afterwards. -/
def strlcpy (src : List UInt8) (size : ℕ) : List UInt8 := src.take (size - 1)

/-- `strlcat(dst, src, size)`: the string in `dst` afterwards. -/
def strlcat (dst src : List UInt8) (size : ℕ) : List UInt8 :=
  dst ++ src.take (size - 1 - dst.length)

/-- The path separator. -/
def slash : List UInt8 := [0x2F]

/-- What `Process` reads its script from. -/
inductive ScriptSource
  | stdin
  | file (path : List UInt8)
deriving DecidableEq

/-- `if (strcmp(filename, "-") == 0) file = stdin; else file = fopen(filename, "r")`.
Source: `Process`, lines 167-276 of `js/src/js.c`. -/
def scriptSource (filename : List UInt8) : ScriptSource :=
  if filename = [0x2D] then .stdin else .file filename

/-- How an include ends; where the name has no encoding `strlcpy` dereferences a null
pointer. -/
inductive IncludeEnd
  | executes (source : ScriptSource)
  | invalidName
  | nullName
deriving DecidableEq

/-- The paths an include hands to `stat`, in order, and how it ends. -/
structure IncludeRun where
  tested : List (List UInt8)
  ended : IncludeEnd
deriving DecidableEq

/-- `sizeof(path)`. -/
def PATH_SIZE : ℕ := 255

/-- `System_Include`, for a string, where these files exist. Source: lines 62-104 of
`js/src/ext/pssystem.c`. -/
def systemIncludePath (files : List UInt8 → Bool) (gModulePath : Option (List UInt8))
    (str : JSString) : IncludeRun :=
  match cString str with
  | none => ⟨[], .nullName⟩
  | some name =>
      let path := strlcpy name PATH_SIZE
      if files path then ⟨[path], .executes (scriptSource path)⟩
      else
        match gModulePath with
        | none => ⟨[path], .invalidName⟩
        | some modulePath =>
            let path' :=
              strlcat (strlcat (strlcpy modulePath PATH_SIZE) slash PATH_SIZE) name PATH_SIZE
            if files path' then ⟨[path, path'], .executes (scriptSource path')⟩
            else ⟨[path, path'], .invalidName⟩

/-- What an include is for: the file named by the argument is executed, or else the one of
that name in the module path; any other name is invalid. -/
def includeMeant (files : List UInt8 → Bool) (gModulePath : Option (List UInt8))
    (str : JSString) : IncludeRun :=
  match plainBytes str with
  | none => ⟨[], .invalidName⟩
  | some name =>
      if files name then ⟨[name], .executes (.file name)⟩
      else
        match gModulePath with
        | none => ⟨[name], .invalidName⟩
        | some modulePath =>
            let path := modulePath ++ slash ++ name
            if files path then ⟨[name, path], .executes (.file path)⟩
            else ⟨[name, path], .invalidName⟩

/-- The name can be that of a file, and every path that is needed fits into the buffer; and it
is not the name `-` of an existing file. -/
def PathFits (files : List UInt8 → Bool) (gModulePath : Option (List UInt8)) (str : JSString) :
    Prop :=
  ∃ name, plainBytes str = some name ∧ name.length < PATH_SIZE ∧
    if files name then name ≠ [0x2D]
    else ∀ modulePath, gModulePath = some modulePath →
      modulePath.length + 1 + name.length < PATH_SIZE

section

variable {dst src name modulePath : List UInt8} {str : JSString} {size : ℕ}

/-- Appending to what was cut off cuts off the whole. -/
theorem strlcat_take : strlcat (dst.take (size - 1)) src size = (dst ++ src).take (size - 1) := by
  unfold strlcat
  rw [List.take_append, List.length_take]
  rcases Nat.le_total dst.length (size - 1) with h | h
  · rw [Nat.min_eq_right h]
  · rw [Nat.min_eq_left h]
    congr 2
    omega

/-- The path in the buffer. -/
theorem modulePath_take :
    strlcat (strlcat (strlcpy modulePath size) slash size) name size =
      (modulePath ++ slash ++ name).take (size - 1) := by
  rw [strlcpy, strlcat_take, strlcat_take]

/-- What is cut off at a length is the whole exactly if that is not longer. -/
theorem take_eq_iff : src.take size = src ↔ src.length ≤ size := by
  constructor
  · intro h
    rw [← h, List.length_take]
    exact Nat.min_le_left ..
  · exact List.take_of_length_le

/-- A name is copied whole if it fits into the buffer. -/
theorem strlcpy_eq_iff : strlcpy name PATH_SIZE = name ↔ name.length < PATH_SIZE := by
  rw [strlcpy, take_eq_iff]
  unfold PATH_SIZE
  omega

/-- So is a path of the modules. -/
theorem modulePath_eq_iff :
    (modulePath ++ slash ++ name).take (PATH_SIZE - 1) = modulePath ++ slash ++ name ↔
      modulePath.length + 1 + name.length < PATH_SIZE := by
  rw [take_eq_iff]
  simp only [List.length_append, slash, List.length_singleton]
  unfold PATH_SIZE
  omega

/-- A path with a slash is not `-`. -/
theorem scriptSource_modulePath :
    scriptSource (modulePath ++ slash ++ name) = .file (modulePath ++ slash ++ name) := by
  refine if_neg fun h => ?_
  have hslash : (0x2F : UInt8) ∈ modulePath ++ slash ++ name := by simp [slash]
  rw [h] at hslash
  revert hslash
  decide

/-- Without a null byte the C string is the whole encoding. -/
theorem cString_of_plainBytes (h : plainBytes str = some name) : cString str = some name := by
  obtain ⟨hbytes, hall⟩ := plainBytes_some h
  rw [cString, hbytes, Option.map_some, hall]

end

section

variable {files : List UInt8 → Bool} {gModulePath : Option (List UInt8)} {str : JSString}
  {name : List UInt8}

/-- For a string that names no file the code looks for one, or stops. -/
theorem include_unnamed (h : plainBytes str = none) :
    systemIncludePath files gModulePath str ≠ includeMeant files gModulePath str := by
  unfold systemIncludePath includeMeant
  rw [h]
  cases cString str with
  | none => rintro ⟨⟩
  | some name =>
      dsimp only
      intro heq
      have htested := congrArg IncludeRun.tested heq
      revert htested
      split_ifs
      · rintro ⟨⟩
      · cases gModulePath with
        | none => rintro ⟨⟩
        | some modulePath =>
            dsimp only
            split_ifs <;> rintro ⟨⟩

/-- A name that does not fit into the buffer is looked for under a shorter one. -/
theorem include_cut (hname : plainBytes str = some name) (hlen : ¬name.length < PATH_SIZE) :
    systemIncludePath files gModulePath str ≠ includeMeant files gModulePath str := by
  have hcut : strlcpy name PATH_SIZE ≠ name := fun h => hlen (strlcpy_eq_iff.1 h)
  unfold systemIncludePath includeMeant
  rw [hname, cString_of_plainBytes hname]
  dsimp only
  intro heq
  -- the first path handed to `stat`
  have hfirst := congrArg (fun run => run.tested.head?) heq
  revert hfirst
  cases gModulePath <;> dsimp only <;> split_ifs <;>
    exact fun h => hcut (Option.some.inj h)

/-- A name that fits, but is not found, is looked for in the module path. -/
theorem include_modulePath_iff (hname : plainBytes str = some name)
    (hlen : name.length < PATH_SIZE) (hfile : files name ≠ true) :
    systemIncludePath files gModulePath str = includeMeant files gModulePath str ↔
      ∀ modulePath, gModulePath = some modulePath →
        modulePath.length + 1 + name.length < PATH_SIZE := by
  unfold systemIncludePath includeMeant
  rw [hname, cString_of_plainBytes hname]
  dsimp only
  rw [strlcpy_eq_iff.2 hlen, if_neg hfile, if_neg hfile]
  cases gModulePath with
  | none => simp
  | some modulePath =>
      dsimp only
      rw [modulePath_take]
      by_cases hpath : modulePath.length + 1 + name.length < PATH_SIZE
      · rw [modulePath_eq_iff.2 hpath, scriptSource_modulePath]
        refine iff_of_true rfl ?_
        rintro _ ⟨⟩
        exact hpath
      · refine iff_of_false (fun heq => hpath (modulePath_eq_iff.1 ?_)) fun h => hpath (h _ rfl)
        -- the second path handed to `stat`
        have hsecond := congrArg (fun run => run.tested.getLast?) heq
        revert hsecond
        split_ifs <;> exact fun h => Option.some.inj h

/-- A name that fits and is found is executed, unless it is `-`. -/
theorem include_found_iff (hname : plainBytes str = some name) (hlen : name.length < PATH_SIZE)
    (hfile : files name = true) :
    systemIncludePath files gModulePath str = includeMeant files gModulePath str ↔
      name ≠ [0x2D] := by
  unfold systemIncludePath includeMeant
  rw [hname, cString_of_plainBytes hname]
  dsimp only
  rw [strlcpy_eq_iff.2 hlen, if_pos hfile, if_pos hfile]
  unfold scriptSource
  split_ifs with hstdin <;> simp [hstdin]

/-- What has to fit, for a string that can name a file. -/
theorem pathFits_iff (hname : plainBytes str = some name) :
    PathFits files gModulePath str ↔ name.length < PATH_SIZE ∧
      if files name then name ≠ [0x2D]
      else ∀ modulePath, gModulePath = some modulePath →
        modulePath.length + 1 + name.length < PATH_SIZE := by
  constructor
  · rintro ⟨name', hname', hfits⟩
    cases hname.symm.trans hname'
    exact hfits
  · exact fun h => ⟨name, hname, h⟩

end

/-- **An include does what it is for exactly if its paths fit**: the name as it is, or
else behind the module path and a slash, in the 255 bytes of the buffer, and not `-`,
which stands for the standard input.  A longer one is cut off, and what is left is tried.
Source: `System_Include` (lines 62-104 of `js/src/ext/pssystem.c`) and the option `-m` in
`ProcessArgs` (lines 427-432 of `js/src/js.c`). -/
theorem include_meant_iff (files : List UInt8 → Bool) (gModulePath : Option (List UInt8))
    (str : JSString) :
    systemIncludePath files gModulePath str = includeMeant files gModulePath str ↔
      PathFits files gModulePath str := by
  cases hname : plainBytes str with
  | none =>
      refine iff_of_false (include_unnamed hname) ?_
      rintro ⟨name, hname', -⟩
      cases hname.symm.trans hname'
  | some name =>
      rw [pathFits_iff hname]
      by_cases hlen : name.length < PATH_SIZE
      · rw [and_iff_right hlen]
        by_cases hfile : files name = true
        · rw [if_pos hfile]
          exact include_found_iff hname hlen hfile
        · rw [if_neg hfile]
          exact include_modulePath_iff hname hlen hfile
      · exact iff_of_false (include_cut hname hlen) fun h => hlen h.1

/-- A module path that fills the buffer. -/
def longModulePath : List UInt8 := List.replicate 254 0x6D

/-- **Behind a long module path the name is cut off**: `stat` finds the directory of the
modules, and the include goes on with that. -/
theorem include_truncated : ¬∀ files gModulePath str,
    systemIncludePath files gModulePath str = includeMeant files gModulePath str := by
  intro hclaim
  have heq := hclaim (· == longModulePath) (some longModulePath) [0x62]
  have hended := congrArg IncludeRun.ended heq
  have hcode : (systemIncludePath (· == longModulePath) (some longModulePath) [0x62]).ended =
      .executes (.file longModulePath) := by decide +kernel
  have hmeant : (includeMeant (· == longModulePath) (some longModulePath) [0x62]).ended =
      .invalidName := by decide +kernel
  rw [hcode, hmeant] at hended
  cases hended

end ProntoScript
