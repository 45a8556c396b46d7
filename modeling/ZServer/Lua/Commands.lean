/-
  ZServer.Lua.Commands

  The texts that `z.lua` and the commands of `src/z.c` hand to each other.

  `z.spawn` writes the name of a module and its arguments into one string; `zLauchCmd`
  takes the string apart, `zluaInit` sends the arguments to the new service, and
  `lualoader.lua` splits them into words.  `z.timeout` writes two numbers, and finds the
  session and the timer in the answer.

    * `spawn_exact_iff` — which arguments reach a service as they were given.
    * `timeout_round_trip` — which sessions and timers `z.timeout` gets back.
-/

import Mathlib.Algebra.Group.Nat.Defs
import Mathlib.Algebra.Order.Group.Unbundled.Int
import Mathlib.Data.List.TakeWhile
import ZServer.Lib.Scan
import ZServer.Lib.Word

namespace ZServer
namespace Lua

open Lib

-- ============================================================================
-- Strings
-- ============================================================================

/-- What a C function sees of a string of Lua. -/
def cString (s : List Char) : List Char := s.takeWhile (· ≠ '\x00')

/-- `%s` of `string.format`: a string under 100 characters goes through `sprintf`. -/
def formatS (s : List Char) : List Char := if 100 ≤ s.length then s else cString s

/-- `tostring` of a number without a fraction, of at most 14 digits. -/
def luaNumber (x : Int) : List Char := decimal x

/-- A `long` as an `int`. -/
def wrapInt (x : Int) : Int := intOf (int32Bits x)

-- ============================================================================
-- LAUNCH
-- ============================================================================

/-- `" \t\r\n"` -/
def isBlank (c : Char) : Bool := c ∈ [' ', '\t', '\r', '\n']

/-- `"\r\n"` -/
def isEol (c : Char) : Bool := c ∈ ['\r', '\n']

/-- The command of `z.spawn`. -/
def spawnCommand (mod : Option (List Char)) (args : List (List Char)) : List Char :=
  let mod := mod.getD ['z', 'l', 'u', 'a']
  let parm := args.flatMap (· ++ [' '])
  formatS mod ++ ' ' :: formatS parm ++ ['\r', '\n']

/-- The module for `ctxMgrCreateContext`, and its arguments unless they are `NULL`. -/
def zLauchCmd (param : List Char) : List Char × Option (List Char) :=
  let (mod, args) := cut isBlank param
  (mod, args.map fun args => (cut isEol args).1)

/-- What `lualoader.lua` makes of the message of `zluaInit`: `SERVICE_NAME` and the
    arguments of the service. -/
def loaderArgs (data : List Char) : List (List Char) := words isSpace data

/-- The module and the words that a command starts; `zluaInit` does not return when its
    arguments are `NULL`. -/
def launched (command : List Char) : Option (List Char × List (List Char)) :=
  let (mod, args) := zLauchCmd (cString command)
  args.map fun args => (mod, loaderArgs args)

-- ============================================================================
-- TIMEOUT and TIMECANCEL
-- ============================================================================

/-- The command of `z.timeout`. -/
def timeoutCommand (time nomore : Int) : List Char :=
  formatS (luaNumber time) ++ ' ' :: formatS (luaNumber nomore)

/-- `time` and `noMore` for `timerTimeout`. -/
def zTimeoutCmd (param : List Char) : Int × Int :=
  let (time, timeStr) := strtol param
  let (noMore, _) := strtol timeStr
  (wrapInt time, wrapInt noMore)

/-- `ctx->result`; the session is an `int` there. -/
def timeoutResult (session : Nat) (sn : Int) : List Char :=
  decimal (intOf session) ++ ' ' :: decimal sn

/-- `"(%d+)%s+(%d+)"` -/
def sessionPattern : List Char → Option (List Char × List Char) :=
  plus (·.isDigit) fun session => plus isSpace fun _ =>
    plus (·.isDigit) fun id _ => some (session, id)

/-- What `z.timeout` finds in the answer; without a match both are `nil`. -/
def timeoutAnswer (str : List Char) : Option (Nat × Nat) :=
  (search sessionPattern str).map fun (session, id) =>
    (Nat.ofDigitChars 10 session 0, Nat.ofDigitChars 10 id 0)

/-- The command of `z.timercancel`. -/
def timercancelCommand (id : Int) : List Char := formatS (luaNumber id) ++ [' ']

/-- `id` for `timerCancel`. -/
def zTimerCancel (param : List Char) : Nat := int32Bits (strtol param).1

-- ============================================================================
-- Arguments of a service
-- ============================================================================

/-- No character of the text is one of these, and none ends a C string. -/
def Plain (sep : Char → Bool) (s : List Char) : Prop := Unbroken sep s ∧ '\x00' ∉ s

instance (sep : Char → Bool) (s : List Char) : Decidable (Plain sep s) :=
  inferInstanceAs (Decidable (_ ∧ _))

section Launch

variable {sep : Char → Bool} {s mod : List Char} {args : List (List Char)}

theorem cString_of_not_mem (h : '\x00' ∉ s) : cString s = s := by
  rw [cString, List.takeWhile_eq_self_iff]
  intro c hc
  have hne : c ≠ '\x00' := by
    intro heq
    exact h (heq ▸ hc)
  simp [hne]

theorem formatS_of_not_mem (h : '\x00' ∉ s) : formatS s = s := by
  simp [formatS, cString_of_not_mem h]

theorem not_mem_cString (s : List Char) : '\x00' ∉ cString s := by
  intro h
  have := List.mem_takeWhile_imp h
  simp at this

/-- The loader never gets a word with white space in it, or an empty one, and the module has
    no blanks; none of them goes on after a zero. -/
theorem launched_plain {command : List Char} (h : launched command = some (mod, args)) :
    Plain isBlank mod ∧ ∀ a ∈ args, a ≠ [] ∧ Plain isSpace a := by
  simp only [launched, zLauchCmd, loaderArgs, Option.map_map, Option.map_eq_some_iff,
    Function.comp_apply, Prod.mk.injEq] at h
  obtain ⟨rest, hrest, hmod, hargs⟩ := h
  have hzero := not_mem_cString command
  subst hmod hargs
  constructor
  · refine ⟨unbroken_cut _, ?_⟩
    intro hmem
    exact hzero (cut_subset _ hmem)
  · intro a ha
    obtain ⟨hne, hspace, hsublist⟩ := mem_words ha
    refine ⟨hne, hspace, ?_⟩
    intro hmem
    have hmem : '\x00' ∈ rest := cut_subset _ (hsublist.subset hmem)
    exact hzero (cut_rest_subset hrest hmem)

/-- The arguments in one string. -/
theorem parm_plain (hargs : ∀ a ∈ args, a ≠ [] ∧ Plain isSpace a) :
    Plain isEol (args.flatMap (· ++ [' '])) := by
  induction args with
  | nil => simp [Plain]
  | cons a args ih =>
      have ha := (hargs a (by simp)).2
      have ih := ih fun a ha => hargs a (by simp [ha])
      have heol : Unbroken isEol a := ha.1.mono fun c hc => by
        simp only [isEol, List.mem_cons, List.not_mem_nil, or_false, decide_eq_true_eq] at hc
        rcases hc with rfl | rfl <;> decide
      constructor
      · simp only [List.flatMap_cons, unbroken_append, unbroken_cons, unbroken_nil, and_true]
        exact ⟨⟨heol, by decide⟩, ih.1⟩
      · simp only [List.flatMap_cons, List.mem_append, List.mem_singleton, not_or]
        exact ⟨⟨ha.2, by decide⟩, ih.2⟩

/-- A service gets its module and its arguments as they were given to `z.spawn` when the
    name of the module has no blanks and each argument is a word; and only then. -/
theorem spawn_exact_iff (mod : List Char) (args : List (List Char)) :
    launched (spawnCommand (some mod) args) = some (mod, args) ↔
      Plain isBlank mod ∧ ∀ a ∈ args, a ≠ [] ∧ Plain isSpace a := by
  constructor
  · exact launched_plain
  · rintro ⟨hmod, hargs⟩
    have hparm := parm_plain hargs
    have hwords : words isSpace (args.flatMap (· ++ [' '])) = args :=
      words_flatMap (by decide) fun a ha => ⟨(hargs a ha).1, (hargs a ha).2.1⟩
    have hzero : '\x00' ∉ mod ++ ' ' :: (args.flatMap (· ++ [' '])) ++ ['\r', '\n'] := by
      simp [hmod.2, hparm.2]
    have hcommand : cString (spawnCommand (some mod) args) =
        mod ++ ' ' :: (args.flatMap (· ++ [' ']) ++ '\r' :: ['\n']) := by
      simp only [spawnCommand, Option.getD_some, formatS_of_not_mem hmod.2,
        formatS_of_not_mem hparm.2]
      rw [cString_of_not_mem hzero]
      simp
    simp only [launched, zLauchCmd, hcommand]
    rw [cut_append_cons hmod.1 (by decide)]
    simp only [Option.map_some, loaderArgs]
    rw [cut_append_cons hparm.1 (by decide), hwords]

/-- An argument with a blank in it becomes two. -/
example : launched (spawnCommand none [['a', ' ', 'b']]) =
    some (['z', 'l', 'u', 'a'], [['a'], ['b']]) := by
  decide +kernel

end Launch

-- ============================================================================
-- Sessions and timers
-- ============================================================================

section Timeout

variable {time nomore sn : Int} {session : Nat} {ds es rest : List Char}

theorem toDigits_ne_zero (n : Nat) : '\x00' ∉ Nat.toDigits 10 n := by
  intro h
  have := Nat.isDigit_of_mem_toDigits (by omega) (by omega) h
  simp at this

theorem formatS_luaNumber (x : Int) : formatS (luaNumber x) = decimal x := by
  apply formatS_of_not_mem
  cases x with
  | ofNat n => exact toDigits_ne_zero n
  | negSucc n => simp [luaNumber, decimal, toDigits_ne_zero]

/-- The first number, and what follows the blank. -/
theorem sessionPattern_digits (hne : ds ≠ []) (hds : ∀ c ∈ ds, c.isDigit)
    (hrest : ∀ c, rest.head? = some c → isSpace c = false) :
    sessionPattern (ds ++ ' ' :: rest) = plus (·.isDigit) (fun id _ => some (ds, id)) rest := by
  have hblank : ∀ c, (' ' :: rest).head? = some c → c.isDigit = false := by simp
  have hspaces : ∀ c ∈ [' '], isSpace c := by simp [isSpace]
  unfold sessionPattern
  rw [plus_append hne hds hblank]
  · apply plus_append (by simp) hspaces hrest
    intro run c s hc
    exact plus_cons_of_not (isDigit_of_isSpace hc)
  · intro run c s hc
    exact plus_cons_of_not (isSpace_of_isDigit hc)

theorem timeoutAnswer_toDigits (m n : Nat) :
    timeoutAnswer (Nat.toDigits 10 m ++ ' ' :: Nat.toDigits 10 n) = some (m, n) := by
  have hdigits : ∀ k, ∀ c ∈ Nat.toDigits 10 k, c.isDigit := fun k c hc =>
    Nat.isDigit_of_mem_toDigits (by omega) (by omega) hc
  have hspace : ∀ c, (Nat.toDigits 10 n).head? = some c → isSpace c = false := by
    intro c hc
    exact isSpace_of_isDigit (hdigits n c (List.mem_of_mem_head? hc))
  have hid : plus (·.isDigit) (fun id _ => some (Nat.toDigits 10 m, id))
      (Nat.toDigits 10 n ++ []) = some (Nat.toDigits 10 m, Nat.toDigits 10 n) :=
    plus_append_some Nat.toDigits_ne_nil (hdigits n) (by simp) rfl
  rw [List.append_nil] at hid
  have hmatch := sessionPattern_digits Nat.toDigits_ne_nil (hdigits m) hspace
  rw [hid] at hmatch
  simp only [timeoutAnswer, search_of_some hmatch, Option.map_some,
    Nat.ofDigitChars_ten_toDigits]

/-- A minus sign in front of everything is passed over. -/
theorem timeoutAnswer_minus (s : List Char) : timeoutAnswer ('-' :: s) = timeoutAnswer s := by
  have hminus : sessionPattern ('-' :: s) = none := plus_cons_of_not (by decide)
  simp only [timeoutAnswer, search_cons_of_none hminus]

theorem search_digits (hes : ∀ c ∈ es, c.isDigit) : search sessionPattern es = none := by
  induction es with
  | nil => rfl
  | cons c es ih =>
      have hmatch : sessionPattern (c :: es ++ []) = none := by
        unfold sessionPattern
        rw [plus_append (by simp) hes (by simp)]
        · rfl
        · intro run c s hc
          exact plus_cons_of_not (isSpace_of_isDigit hc)
      rw [List.append_nil] at hmatch
      rw [search_cons_of_none hmatch]
      exact ih fun c hc => hes c (List.mem_cons_of_mem _ hc)

/-- A minus sign between the numbers is not. -/
theorem search_minus (hds : ∀ c ∈ ds, c.isDigit) (hes : ∀ c ∈ es, c.isDigit) :
    search sessionPattern (ds ++ ' ' :: '-' :: es) = none := by
  have hminus : ∀ k : List Char → List Char → Option (List Char × List Char),
      plus (·.isDigit) k ('-' :: es) = none := fun k => plus_cons_of_not (by decide)
  induction ds with
  | nil =>
      have hblank : sessionPattern (' ' :: '-' :: es) = none := plus_cons_of_not (by decide)
      have hsign : sessionPattern ('-' :: es) = none := hminus _
      rw [List.nil_append, search_cons_of_none hblank, search_cons_of_none hsign]
      exact search_digits hes
  | cons d ds ih =>
      have hmatch : sessionPattern (d :: ds ++ ' ' :: '-' :: es) = none :=
        (sessionPattern_digits (by simp) hds (by simp [isSpace])).trans (hminus _)
      rw [List.cons_append] at hmatch ⊢
      rw [search_cons_of_none hmatch]
      exact ih fun c hc => hds c (List.mem_cons_of_mem d hc)

/-- `z.timeout` drops the sign of the session, and finds no timer below 0. -/
theorem timeoutAnswer_timeoutResult (session : Nat) (sn : Int) :
    timeoutAnswer (timeoutResult session sn) =
      if 0 ≤ sn then some ((intOf session).natAbs, sn.natAbs) else none := by
  have hdigits : ∀ k, ∀ c ∈ Nat.toDigits 10 k, c.isDigit := fun k c hc =>
    Nat.isDigit_of_mem_toDigits (by omega) (by omega) hc
  have hsign : ∀ x : Int, ∀ t, timeoutAnswer (decimal x ++ t) =
      timeoutAnswer (Nat.toDigits 10 x.natAbs ++ t) := by
    intro x t
    cases x with
    | ofNat n => rfl
    | negSucc n => exact timeoutAnswer_minus _
  unfold timeoutResult
  rw [hsign]
  cases sn with
  | ofNat n =>
      have hn : 0 ≤ Int.ofNat n := Int.natCast_nonneg n
      rw [if_pos hn]
      exact timeoutAnswer_toDigits _ n
  | negSucc n =>
      have hn : ¬0 ≤ Int.negSucc n := by omega
      rw [if_neg hn]
      simp only [decimal, timeoutAnswer]
      rw [search_minus (hdigits _) (hdigits _)]
      rfl

/-- `strtol` on a number of Lua, at once or after a blank. -/
theorem strtol_luaNumber {x : Int} (hx : |x| < 10 ^ 14) (hrest : NoDigit rest) :
    strtol (decimal x ++ rest) = (x, rest) ∧ strtol (' ' :: (decimal x ++ rest)) = (x, rest) := by
  have habs := abs_lt.mp hx
  have hmin : longMin ≤ x := by
    simp only [longMin]
    omega
  have hmax : x ≤ longMax := by
    simp only [longMax]
    omega
  have hblank : ∀ c ∈ [' '], isSpace c := by simp [isSpace]
  have hnone : ∀ c ∈ ([] : List Char), isSpace c := by simp
  exact ⟨strtol_decimal hnone hmin hmax hrest, strtol_decimal hblank hmin hmax hrest⟩

theorem zTimeoutCmd_timeoutCommand (htime : |time| < 10 ^ 14) (hnomore : |nomore| < 10 ^ 14) :
    zTimeoutCmd (timeoutCommand time nomore) = (wrapInt time, wrapInt nomore) := by
  have hblank : NoDigit (' ' :: decimal nomore) := by simp [NoDigit]
  have hfirst := (strtol_luaNumber htime hblank).1
  have hend : NoDigit [] := by simp [NoDigit]
  have hsecond := (strtol_luaNumber hnomore hend).2
  rw [List.append_nil] at hsecond
  simp only [zTimeoutCmd, timeoutCommand, formatS_luaNumber, hfirst, hsecond]

theorem zTimerCancel_timercancelCommand {n : Nat} (hn : n < 2 ^ 32) :
    zTimerCancel (timercancelCommand n) = n := by
  have hshort : |(n : Int)| < 10 ^ 14 := by
    rw [abs_lt]
    omega
  have hblank : NoDigit [' '] := by simp [NoDigit]
  have hread := (strtol_luaNumber hshort hblank).1
  simp only [zTimerCancel, timercancelCommand, formatS_luaNumber, hread, int32Bits]
  omega

/-- `z.timeout` asks for the time and the flag it was given, and gets the session and the
    timer back when the session is not above 2^31 and the timer was taken; a timer it gets
    back is the one that `z.timercancel` names. -/
theorem timeout_round_trip (htime : |time| < 10 ^ 14) (hnomore : |nomore| < 10 ^ 14)
    (hsession : session < 2 ^ 32) (hsn : sn < 2 ^ 31) :
    zTimeoutCmd (timeoutCommand time nomore) = (wrapInt time, wrapInt nomore) ∧
      (timeoutAnswer (timeoutResult session sn) = some (session, sn.toNat) ↔
        session ≤ 2 ^ 31 ∧ 0 ≤ sn) ∧
      ∀ answer, timeoutAnswer (timeoutResult session sn) = some answer →
        (zTimerCancel (timercancelCommand answer.2) : Int) = sn := by
  rw [timeoutAnswer_timeoutResult]
  refine ⟨zTimeoutCmd_timeoutCommand htime hnomore, ?_, ?_⟩
  · by_cases hnonneg : 0 ≤ sn
    · have habs : sn.natAbs = sn.toNat := by omega
      simp only [hnonneg, if_true, Option.some.injEq, Prod.mk.injEq, habs, and_true, intOf]
      split <;> omega
    · simp [hnonneg]
  · intro answer hanswer
    split at hanswer
    case isTrue hnonneg =>
      obtain rfl := Option.some.inj hanswer
      rw [zTimerCancel_timercancelCommand (by omega)]
      omega
    case isFalse => cases hanswer

theorem timeout_round_trip_sample :
    zTimeoutCmd (timeoutCommand 100 1) = (wrapInt 100, wrapInt 1) ∧
      (timeoutAnswer (timeoutResult (2 ^ 31) 7) = some (2 ^ 31, (7 : Int).toNat) ↔
        2 ^ 31 ≤ 2 ^ 31 ∧ (0 : Int) ≤ 7) ∧
      ∀ answer, timeoutAnswer (timeoutResult (2 ^ 31) 7) = some answer →
        (zTimerCancel (timercancelCommand answer.2) : Int) = 7 :=
  timeout_round_trip (abs_lt.mpr (by omega)) (abs_lt.mpr (by omega)) (by omega) (by omega)

/-- Above 2^31 the session is another one. -/
example : timeoutAnswer (timeoutResult (2 ^ 31 + 5) 7) = some (2 ^ 31 - 5, 7) := by
  decide +kernel

end Timeout

end Lua
end ZServer
