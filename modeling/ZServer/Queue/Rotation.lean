/-
  ZServer.Queue.Rotation

  The files of a log: `handleLog` of `src/log.c` and `_logger` of
  `service-src/service_logger.c` write one line after the other, and begin a new file when
  the old one has too many.  The old one is renamed; neither looks at what `rename` answers,
  and the name is made of the time in seconds.

  A line is known by its number, so that a file is a list of numbers.

    * `log_complete_iff` — when no line is lost.
    * `rotated_sizes` — how many lines the files have.
-/

import Mathlib.Data.List.Range
import Mathlib.Logic.Function.Basic
import ZServer.Lib.Transition

namespace ZServer
namespace Rotation

open Lib

-- ============================================================================
-- Names
-- ============================================================================

abbrev Path := List Char

def FILENAME_MAX : Nat := 4096

/-- `struct tm` -/
structure Tm where
  tm_year : Int
  tm_mon : Int
  tm_mday : Int
  tm_hour : Int
  tm_min : Int
  tm_sec : Int
  deriving DecidableEq, Repr

/-- `%0<width>d` -/
def padded (width : Nat) (n : Int) : List Char :=
  let digits := Nat.toDigits 10 n.natAbs
  if n < 0 then '-' :: List.replicate (width - 1 - digits.length) '0' ++ digits
  else List.replicate (width - digits.length) '0' ++ digits

/-- The name for the old file, as `snprintf` cuts it off. -/
def filePath (rotateDir name : Path) (tm : Tm) : Path :=
  (rotateDir ++ '/' :: name ++ '_' :: padded 4 (tm.tm_year + 1900) ++
    '_' :: padded 2 (tm.tm_mon + 1) ++ '_' :: padded 2 tm.tm_mday ++ '_' :: padded 2 tm.tm_hour ++
    '_' :: padded 2 tm.tm_min ++ '_' :: padded 2 tm.tm_sec).take (FILENAME_MAX - 2)

-- ============================================================================
-- The log
-- ============================================================================

/-- The lines of the log in each file that there is. -/
abbrev Files := Path → Option (List Nat)

/-- `struct log` and `struct logger`, for a log that goes to a file; the counters stay
    below `INT_MAX`. -/
structure LogFile where
  name : Path
  rotateDir : Path
  maxLineNum : Int
  lineNum : Int
  /-- it is not NULL -/
  handle : Bool
  files : Files
  /-- how many lines have been written -/
  written : Nat
  /-- how many lines each file had when it was closed -/
  sizes : List Nat

/-- What happens while a line is handled: the time, and what `rename` and `fopen` answer. -/
structure Choice where
  tm : Tm
  renamed : Bool
  opened : Bool

def rename (files : Files) (old new : Path) (succeeds : Bool) : Files :=
  match files old with
  | none => files
  | some lines =>
      if succeeds ∧ old ≠ new then Function.update (Function.update files new (some lines)) old none
      else files

/-- `fopen(name, "w")` -/
def create (files : Files) (name : Path) : Files := Function.update files name (some [])

/-- `logInit` and `loggerInit`, which find no line of the log in a file. -/
def logInit (name rotateDir : Path) (maxLineNum : Int) (exists_ : Path → Bool) : LogFile where
  name := name
  rotateDir := rotateDir
  maxLineNum := maxLineNum
  lineNum := 0
  handle := true
  files := create (fun path => if exists_ path then some [] else none) name
  written := 0
  sizes := []

section Operations

variable (L : LogFile) (c : Choice)

def lines (path : Path) : List Nat := (L.files path).getD []

/-- What the old file is called. -/
def target : Path := filePath L.rotateDir L.name c.tm

/-- `_rotateFile` -/
def rotateFile : LogFile :=
  if L.lineNum > L.maxLineNum then
    let files := rename L.files L.name (target L c) c.renamed
    { L with
      lineNum := 0
      files := if c.opened then create files L.name else files
      handle := c.opened
      sizes := L.sizes ++ [(lines L L.name).length] }
  else { L with lineNum := L.lineNum + 1 }

/-- `fprintf(handle, …)` of the next line. -/
def append : LogFile :=
  { L with
    files := Function.update L.files L.name ((L.files L.name).map (· ++ [L.written]))
    written := L.written + 1 }

/-- `handleLog` and `_logger`; the process does not outlive a NULL handle. -/
def handleLog : Option LogFile :=
  let L := rotateFile L c
  if L.handle then some (append L) else none

end Operations

/-- Every line that has been written is in a file. -/
def Complete (L : LogFile) : Prop := ∀ i < L.written, ∃ path, i ∈ lines L path

/-- The condition on a line: when it begins a new file, the old one has been renamed, to a
    name under which there are no lines; or it has no lines itself. -/
def Harmless (L : LogFile) (c : Choice) : Prop :=
  L.lineNum > L.maxLineNum →
    if c.renamed ∧ L.name ≠ target L c then lines L (target L c) = [] else lines L L.name = []

-- ============================================================================
-- What holds
-- ============================================================================

/-- The files have different lines, that have been written; the last file is open. -/
structure Ok (L : LogFile) : Prop where
  handle : L.handle = true
  current : (L.files L.name).isSome
  bound : ∀ path, ∀ i ∈ lines L path, i < L.written
  apart : ∀ path path' i, i ∈ lines L path → i ∈ lines L path' → path = path'

section Step

variable {L L' : LogFile} {c : Choice} {path : Path}

/-- The lines after a rename. -/
theorem lines_rename (hok : Ok L) (new : Path) (succeeds : Bool) (path : Path) :
    (rename L.files L.name new succeeds path).getD [] =
      if succeeds ∧ L.name ≠ new then
        if path = L.name then [] else if path = new then lines L L.name else lines L path
      else lines L path := by
  obtain ⟨content, hcontent⟩ := Option.isSome_iff_exists.mp hok.current
  unfold rename
  rw [hcontent]
  by_cases hrenamed : succeeds ∧ L.name ≠ new
  · simp only [if_pos hrenamed]
    by_cases hname : path = L.name
    · simp [hname]
    · by_cases hnew : path = new
      · simp [hnew, Ne.symm hrenamed.2, lines, hcontent]
      · simp [hname, hnew, lines]
  · simp only [if_neg hrenamed]
    rfl

/-- What is written after one more line; `begins` says whether it begins a new file. -/
structure Wrote (L : LogFile) (c : Choice) (begins : Bool) (L' : LogFile) : Prop where
  name : L'.name = L.name
  rotateDir : L'.rotateDir = L.rotateDir
  maxLineNum : L'.maxLineNum = L.maxLineNum
  handle : L'.handle = true
  current : (L'.files L'.name).isSome
  written : L'.written = L.written + 1
  lineNum : L'.lineNum = if begins then 0 else L.lineNum + 1
  sizes : L'.sizes = if begins then L.sizes ++ [(lines L L.name).length] else L.sizes
  last : lines L' L.name = (if begins then [] else lines L L.name) ++ [L.written]
  other : ∀ path ≠ L.name, lines L' path =
    if begins ∧ c.renamed ∧ L.name ≠ target L c ∧ path = target L c then lines L L.name
    else lines L path

/-- One line. -/
theorem handleLog_wrote (hok : Ok L) (hs : handleLog L c = some L') :
    Wrote L c (decide (L.lineNum > L.maxLineNum)) L' := by
  unfold handleLog at hs
  by_cases hbegins : L.lineNum > L.maxLineNum
  · simp only [rotateFile, if_pos hbegins, Option.ite_none_right_eq_some,
      Option.some.injEq] at hs
    obtain ⟨hopened, rfl⟩ := hs
    simp only [hbegins, decide_true]
    refine ⟨rfl, rfl, rfl, hopened, ?_, rfl, rfl, rfl, ?_, ?_⟩
    · simp [append, create, hopened]
    · simp [append, create, hopened, lines]
    · intro path hpath
      have hlines := lines_rename hok (target L c) c.renamed path
      simp only [hpath, if_false] at hlines
      simp only [append, create, hopened, if_true, lines, Function.update_of_ne hpath, true_and]
      rw [hlines]
      by_cases hrenamed : c.renamed ∧ L.name ≠ target L c
      · by_cases htarget : path = target L c
        · simp [hrenamed, htarget, lines]
        · simp [htarget, lines]
      · rw [if_neg hrenamed, if_neg (fun h => hrenamed ⟨h.1, h.2.1⟩)]
        rfl
  · simp only [rotateFile, if_neg hbegins, Option.ite_none_right_eq_some,
      Option.some.injEq] at hs
    obtain ⟨hhandle, rfl⟩ := hs
    obtain ⟨content, hcontent⟩ := Option.isSome_iff_exists.mp hok.current
    simp only [hbegins, decide_false]
    refine ⟨rfl, rfl, rfl, hhandle, ?_, rfl, rfl, rfl, ?_, ?_⟩
    · simp [append, hcontent]
    · simp [append, lines, hcontent]
    · intro path hpath
      simp [append, lines, Function.update_of_ne hpath]

/-- Where a line is after one more line. -/
theorem Wrote.mem_cases {begins : Bool} (h : Wrote L c begins L') {i : Nat}
    (hi : i ∈ lines L' path) :
    path = L.name ∧ i = L.written ∨ path = L.name ∧ i ∈ lines L L.name ∧ begins = false ∨
      path ≠ L.name ∧ (begins ∧ c.renamed ∧ L.name ≠ target L c ∧ path = target L c) ∧
        i ∈ lines L L.name ∨
      path ≠ L.name ∧ i ∈ lines L path ∧
        ¬(begins ∧ c.renamed ∧ L.name ≠ target L c ∧ path = target L c) := by
  by_cases hpath : path = L.name
  · subst hpath
    rw [h.last] at hi
    rcases List.mem_append.mp hi with hi | hi
    · cases begins
      · exact Or.inr (Or.inl ⟨rfl, by simpa using hi, rfl⟩)
      · simp at hi
    · exact Or.inl ⟨rfl, List.mem_singleton.mp hi⟩
  · rw [h.other path hpath] at hi
    split at hi
    · rename_i hmoved
      exact Or.inr (Or.inr (Or.inl ⟨hpath, hmoved, hi⟩))
    · rename_i hstays
      exact Or.inr (Or.inr (Or.inr ⟨hpath, hi, hstays⟩))

/-- The file that a line has come from. -/
theorem Wrote.source {begins : Bool} (h : Wrote L c begins L') {i : Nat}
    (hi : i ∈ lines L' path) (hlt : i < L.written) :
    ∃ path₀, i ∈ lines L path₀ ∧
      (path₀ = L.name ∧ path = (if begins then target L c else L.name) ∨
        path₀ ≠ L.name ∧ path = path₀) := by
  rcases h.mem_cases hi with ⟨-, rfl⟩ | ⟨rfl, hi₀, rfl⟩ | ⟨-, ⟨hb, -, -, rfl⟩, hi₀⟩ | ⟨hne, hi₀, -⟩
  · omega
  · exact ⟨L.name, hi₀, Or.inl ⟨rfl, rfl⟩⟩
  · exact ⟨L.name, hi₀, Or.inl ⟨rfl, by rw [if_pos hb]⟩⟩
  · exact ⟨path, hi₀, Or.inr ⟨hne, rfl⟩⟩

theorem Wrote.ok {begins : Bool} (h : Wrote L c begins L') (hok : Ok L) : Ok L' where
  handle := h.handle
  current := h.current
  bound := by
    intro path i hi
    rw [h.written]
    rcases h.mem_cases hi with ⟨-, rfl⟩ | ⟨-, hi, -⟩ | ⟨-, -, hi⟩ | ⟨-, hi, -⟩
    · omega
    · have := hok.bound _ i hi
      omega
    · have := hok.bound _ i hi
      omega
    · have := hok.bound _ i hi
      omega
  apart := by
    intro path path' i hi hi'
    by_cases hlast : i = L.written
    · -- the new line is in the last file
      have hname : ∀ {path}, i ∈ lines L' path → path = L.name := by
        intro path hi
        rcases h.mem_cases hi with ⟨hpath, -⟩ | ⟨hpath, -⟩ | ⟨-, -, hi⟩ | ⟨-, hi, -⟩
        · exact hpath
        · exact hpath
        · have := hok.bound _ i hi
          omega
        · have := hok.bound _ i hi
          omega
      rw [hname hi, hname hi']
    · have hbound : i < L.written := by
        rcases h.mem_cases hi with ⟨-, hi⟩ | ⟨-, hi, -⟩ | ⟨-, -, hi⟩ | ⟨-, hi, -⟩
        · exact absurd hi hlast
        · exact hok.bound _ i hi
        · exact hok.bound _ i hi
        · exact hok.bound _ i hi
      obtain ⟨path₀, hi₀, hpath⟩ := h.source hi hbound
      obtain ⟨path₁, hi₁, hpath'⟩ := h.source hi' hbound
      have heq := hok.apart path₀ path₁ i hi₀ hi₁
      subst heq
      rcases hpath with ⟨rfl, rfl⟩ | ⟨hne, rfl⟩
      · rcases hpath' with ⟨-, rfl⟩ | ⟨hne, -⟩
        · rfl
        · exact absurd rfl hne
      · rcases hpath' with ⟨rfl, -⟩ | ⟨-, rfl⟩
        · exact absurd rfl hne
        · rfl

/-- A line that does no harm loses nothing. -/
theorem Wrote.complete (h : Wrote L c (decide (L.lineNum > L.maxLineNum)) L')
    (hcomplete : Complete L) (hharmless : Harmless L c) : Complete L' := by
  intro i hi
  rw [h.written] at hi
  rcases Nat.lt_succ_iff_lt_or_eq.mp hi with hi | rfl
  · obtain ⟨path, hpath⟩ := hcomplete i hi
    by_cases hbegins : L.lineNum > L.maxLineNum
    · have hharmless := hharmless hbegins
      simp only [hbegins, decide_true] at h
      by_cases hname : path = L.name
      · subst hname
        split at hharmless
        · rename_i hrenamed
          refine ⟨target L c, ?_⟩
          rw [h.other _ (Ne.symm hrenamed.2), if_pos ⟨rfl, hrenamed.1, hrenamed.2, rfl⟩]
          exact hpath
        · rw [hharmless] at hpath
          simp at hpath
      · refine ⟨path, ?_⟩
        rw [h.other path hname, if_neg]
        · exact hpath
        · rintro ⟨-, hrenamed, hne, rfl⟩
          rw [if_pos ⟨hrenamed, hne⟩] at hharmless
          rw [hharmless] at hpath
          simp at hpath
    · simp only [hbegins, decide_false] at h
      refine ⟨path, ?_⟩
      by_cases hname : path = L.name
      · subst hname
        rw [h.last]
        exact List.mem_append_left _ hpath
      · rw [h.other path hname, if_neg (by simp)]
        exact hpath
  · refine ⟨L.name, ?_⟩
    rw [h.last]
    exact List.mem_append_right _ (List.mem_singleton_self _)

/-- A line that does harm loses the lines of a file. -/
theorem Wrote.harmless (h : Wrote L c (decide (L.lineNum > L.maxLineNum)) L') (hok : Ok L)
    (hcomplete : Complete L') : Harmless L c := by
  intro hbegins
  simp only [hbegins, decide_true] at h
  have hkept : ∀ {path₀ i}, i ∈ lines L path₀ → ∃ path, i ∈ lines L' path ∧ i ≠ L.written := by
    intro path₀ i hi
    have hlt := hok.bound path₀ i hi
    obtain ⟨path, hpath⟩ := hcomplete i (by rw [h.written]; omega)
    exact ⟨path, hpath, Nat.ne_of_lt hlt⟩
  split
  · rename_i hrenamed
    rw [List.eq_nil_iff_forall_not_mem]
    intro i hi
    obtain ⟨path, hpath, hne⟩ := hkept hi
    rcases h.mem_cases hpath with ⟨-, heq⟩ | ⟨-, -, hfalse⟩ | ⟨-, -, hi'⟩ | ⟨-, hi', hstays⟩
    · exact hne heq
    · simp at hfalse
    · exact hrenamed.2 (hok.apart _ _ i hi' hi)
    · exact hstays ⟨rfl, hrenamed.1, hrenamed.2, hok.apart _ _ i hi' hi⟩
  · rename_i hnot
    rw [List.eq_nil_iff_forall_not_mem]
    intro i hi
    obtain ⟨path, hpath, hne⟩ := hkept hi
    rcases h.mem_cases hpath with ⟨-, heq⟩ | ⟨-, -, hfalse⟩ | ⟨-, ⟨-, hrenamed, htarget, -⟩, -⟩ |
        ⟨hname, hi', -⟩
    · exact hne heq
    · simp at hfalse
    · exact hnot ⟨hrenamed, htarget⟩
    · exact hname (hok.apart _ _ i hi' hi)

end Step

-- ============================================================================
-- Runs
-- ============================================================================

section Runs

variable (name rotateDir : Path) (maxLineNum : Int) (exists_ : Path → Bool)

theorem lines_logInit (path : Path) : lines (logInit name rotateDir maxLineNum exists_) path = [] := by
  unfold lines logInit create
  by_cases hpath : path = name
  · simp [hpath]
  · simp only [Function.update_of_ne hpath]
    split <;> rfl

theorem logInit_ok : Ok (logInit name rotateDir maxLineNum exists_) where
  handle := rfl
  current := by simp [logInit, create]
  bound path i hi := by
    rw [lines_logInit] at hi
    simp at hi
  apart path path' i hi _ := by
    rw [lines_logInit] at hi
    simp at hi

/-- Along any run, every line that has been written is in a file, at every moment, exactly
    if each new file is begun without harm. -/
theorem log_complete_iff (cs : List Choice) :
    Always handleLog Complete (logInit name rotateDir maxLineNum exists_) cs ↔
      AllSteps handleLog Harmless (logInit name rotateDir maxLineNum exists_) cs := by
  refine always_iff_allSteps (J := fun L => Ok L ∧ Complete L) (fun _ h => h.2) ?_ ?_ ?_
  · rintro L c L' ⟨hok, hcomplete⟩ hs hharmless
    have hwrote := handleLog_wrote hok hs
    exact ⟨hwrote.ok hok, hwrote.complete hcomplete hharmless⟩
  · rintro L c L' ⟨hok, -⟩ hs hcomplete
    exact (handleLog_wrote hok hs).harmless hok hcomplete
  · refine ⟨logInit_ok name rotateDir maxLineNum exists_, ?_⟩
    intro i hi
    exact absurd hi (Nat.not_lt_zero i)

end Runs

-- ============================================================================
-- How long the files are
-- ============================================================================

/-- The first file has one line more than `maxLineNum` says, and every later one two. -/
def ClosedSizes (L : LogFile) : Prop :=
  ∀ (i n : Nat), L.sizes[i]? = some n → (n : Int) = max L.maxLineNum (-1) + if i = 0 then 1 else 2

/-- The counter is the number of lines of the open file, but for the first line of a later
    one. -/
structure Counted (L : LogFile) : Prop where
  ok : Ok L
  nonneg : 0 ≤ L.lineNum
  counter : L.lineNum ≤ max L.maxLineNum (-1) + 1
  last : ((lines L L.name).length : Int) = L.lineNum + if L.sizes = [] then 0 else 1
  closed : ClosedSizes L

theorem Counted.step {L L' : LogFile} {c : Choice} (h : Counted L)
    (hs : handleLog L c = some L') : Counted L' := by
  have hwrote := handleLog_wrote h.ok hs
  obtain ⟨hok, hnonneg, hcounter, hlast, hclosed⟩ := h
  have hlast' := congrArg List.length hwrote.last
  by_cases hbegins : L.lineNum > L.maxLineNum
  · simp only [hbegins, decide_true] at hwrote hlast'
    have hline := hwrote.lineNum
    have hsizes := hwrote.sizes
    simp only [if_true] at hline hsizes
    have hfull : ((lines L L.name).length : Int) =
        max L.maxLineNum (-1) + if L.sizes = [] then 1 else 2 := by
      rw [hlast]
      split <;> omega
    refine ⟨hwrote.ok hok, by omega, by omega, ?_, ?_⟩
    · rw [hwrote.name, hlast', hline, hsizes]
      simp
    · intro i n hget
      rw [hwrote.maxLineNum]
      rw [hsizes] at hget
      rcases Nat.lt_trichotomy i L.sizes.length with hlt | rfl | hgt
      · rw [List.getElem?_append_left hlt] at hget
        exact hclosed i n hget
      · rw [List.getElem?_append_right (Nat.le_refl _)] at hget
        simp only [Nat.sub_self, List.getElem?_cons_zero, Option.some.injEq] at hget
        rw [← hget, hfull]
        simp [List.length_eq_zero_iff]
      · rw [List.getElem?_eq_none (by simp; omega)] at hget
        simp at hget
  · simp only [hbegins, decide_false] at hwrote hlast'
    have hline := hwrote.lineNum
    have hsizes := hwrote.sizes
    have hmax := hwrote.maxLineNum
    simp only [Bool.false_eq_true, if_false] at hline hsizes hlast'
    simp only [List.length_append, List.length_singleton] at hlast'
    refine ⟨hwrote.ok hok, by omega, by omega, ?_, ?_⟩
    · rw [hwrote.name, hlast', hline, hsizes]
      push_cast
      omega
    · intro i n hget
      rw [hmax]
      rw [hsizes] at hget
      exact hclosed i n hget

/-- Along any run, also one that loses lines. -/
theorem rotated_sizes (name rotateDir : Path) (maxLineNum : Int) (exists_ : Path → Bool)
    (cs : List Choice) :
    Always handleLog ClosedSizes (logInit name rotateDir maxLineNum exists_) cs := by
  refine always_of_invariant (J := Counted) (fun _ h => h.closed) (fun _ _ _ h hs => h.step hs) ?_
  refine ⟨logInit_ok name rotateDir maxLineNum exists_, Int.le_refl _, ?_, ?_, ?_⟩
  · show (0 : Int) ≤ _
    omega
  · have hname : (logInit name rotateDir maxLineNum exists_).name = name := rfl
    rw [hname, lines_logInit]
    rfl
  · intro i n hget
    simp [logInit] at hget

/-- Two files that are closed in the same second: the lines of the first one are lost. -/
example : let L := logInit "a".toList "b".toList 0 fun _ => false
    let tm : Tm := ⟨126, 9, 5, 12, 0, 0⟩
    ((runFrom handleLog L (List.replicate 5 ⟨tm, true, true⟩)).map fun L =>
      (lines L (filePath "b".toList "a".toList tm), lines L "a".toList)) = some ([1, 2], [3, 4]) := by
  decide

end Rotation
end ZServer
