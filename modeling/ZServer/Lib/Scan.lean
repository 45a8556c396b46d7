/-
  ZServer.Lib.Scan

  Text that is cut at separators, and decimal numbers in text.

    * `cut` — up to the first separator, and what follows it.
    * `words` — the runs of characters between the separators.
    * `plus`, `search` — a greedy pattern of character classes.
    * `decimal`, `strtol` — a number printed, and read.
-/

import Mathlib.Data.Int.Order.Basic

namespace ZServer.Lib

-- ============================================================================
-- Separators
-- ============================================================================

section Separators

variable {α : Type*} (sep : α → Bool)

/-- No character of the text is a separator. -/
def Unbroken (s : List α) : Prop := ∀ c ∈ s, sep c = false

instance (s : List α) : Decidable (Unbroken sep s) := inferInstanceAs (Decidable (∀ c ∈ s, _))

/-- The part before the first separator, and the part after it if there is one. -/
def cut : List α → List α × Option (List α)
  | [] => ([], none)
  | c :: s => if sep c then ([], some s) else (c :: (cut s).1, (cut s).2)

/-- The runs of characters that are no separators. -/
def words (s : List α) : List (List α) := (s.splitOnP sep).filter fun w => !w.isEmpty

variable {sep} {s a b : List α} {c d : α}

@[simp] theorem unbroken_nil : Unbroken sep ([] : List α) := by simp [Unbroken]

@[simp] theorem unbroken_cons : Unbroken sep (c :: s) ↔ sep c = false ∧ Unbroken sep s := by
  simp [Unbroken]

@[simp] theorem unbroken_append : Unbroken sep (a ++ b) ↔ Unbroken sep a ∧ Unbroken sep b := by
  simp only [Unbroken, List.mem_append]
  constructor
  · intro h
    exact ⟨fun c hc => h c (Or.inl hc), fun c hc => h c (Or.inr hc)⟩
  · rintro ⟨ha, hb⟩ c (hc | hc)
    · exact ha c hc
    · exact hb c hc

theorem Unbroken.subset (h : Unbroken sep s) (hsub : a ⊆ s) : Unbroken sep a :=
  fun c hc => h c (hsub hc)

theorem Unbroken.mono {sep' : α → Bool} (h : Unbroken sep s) (hsep : ∀ c, sep' c → sep c) :
    Unbroken sep' s := by
  intro c hc
  have hc := h c hc
  by_contra hne
  have := hsep c (by simpa using hne)
  simp_all

theorem cut_append_cons (ha : Unbroken sep a) (hd : sep d) : cut sep (a ++ d :: b) = (a, some b) := by
  induction a with
  | nil => simp [cut, hd]
  | cons c a ih =>
      simp only [unbroken_cons] at ha
      simp [cut, ha.1, ih ha.2]

theorem unbroken_cut (s : List α) : Unbroken sep (cut sep s).1 := by
  induction s with
  | nil => simp [cut]
  | cons c s ih =>
      by_cases hc : sep c
      · simp [cut, hc]
      · simpa [cut, hc] using ih

theorem cut_subset (s : List α) : (cut sep s).1 ⊆ s := by
  induction s with
  | nil => simp [cut]
  | cons c s ih =>
      by_cases hc : sep c
      · simp [cut, hc]
      · simp [cut, hc, ih, List.subset_cons_of_subset]

theorem cut_rest_subset {rest : List α} (h : (cut sep s).2 = some rest) : rest ⊆ s := by
  induction s with
  | nil => simp [cut] at h
  | cons c s ih =>
      by_cases hc : sep c
      · simp only [cut, hc, if_true, Option.some.injEq] at h
        subst h
        exact List.subset_cons_self c s
      · simp only [cut, hc] at h
        exact List.subset_cons_of_subset c (ih (by simpa using h))

@[simp] theorem words_nil : words sep ([] : List α) = [] := by simp [words]

theorem words_append_cons (a b : List α) (hd : sep d) :
    words sep (a ++ d :: b) = words sep a ++ words sep b := by
  simp [words, List.splitOnP_append_cons _ _ hd]

theorem words_of_unbroken (ha : Unbroken sep a) (hne : a ≠ []) : words sep a = [a] := by
  simp [words, List.splitOnP_eq_singleton ha, hne]

theorem mem_splitOnP {w : List α} (h : w ∈ s.splitOnP sep) :
    Unbroken sep w ∧ w.Sublist s := by
  induction s generalizing w with
  | nil =>
      simp only [List.splitOnP_nil, List.mem_singleton] at h
      simp [h]
  | cons c s ih =>
      rw [List.splitOnP_cons_eq_if_modifyHead] at h
      split at h
      case isTrue hc =>
        rw [List.mem_cons] at h
        rcases h with h | h
        · simp [h]
        · exact ⟨(ih h).1, (ih h).2.cons c⟩
      case isFalse hc =>
        obtain ⟨x, xs, hx⟩ := List.exists_cons_of_ne_nil (List.splitOnP_ne_nil sep s)
        rw [hx] at h ih
        rw [List.modifyHead_cons, List.mem_cons] at h
        rcases h with h | h
        · obtain ⟨hx, hsub⟩ := ih (List.mem_cons_self (a := x))
          subst h
          simp only [unbroken_cons]
          exact ⟨⟨by simpa using hc, hx⟩, hsub.cons_cons c⟩
        · obtain ⟨hx, hsub⟩ := ih (List.mem_cons_of_mem x h)
          exact ⟨hx, hsub.cons c⟩

/-- What is a word is not empty, and nothing in it is a separator. -/
theorem mem_words {w : List α} (h : w ∈ words sep s) :
    w ≠ [] ∧ Unbroken sep w ∧ w.Sublist s := by
  simp only [words, List.mem_filter] at h
  obtain ⟨hmem, hne⟩ := h
  refine ⟨by simpa using hne, mem_splitOnP hmem⟩

/-- Words with a separator after each of them are read back. -/
theorem words_flatMap {l : List (List α)} (hd : sep d) (hl : ∀ w ∈ l, w ≠ [] ∧ Unbroken sep w) :
    words sep (l.flatMap (· ++ [d])) = l := by
  induction l with
  | nil => simp
  | cons w l ih =>
      have hw := hl w (by simp)
      have ih := ih fun w hw => hl w (by simp [hw])
      rw [List.flatMap_cons, List.append_assoc, List.singleton_append, words_append_cons _ _ hd,
        words_of_unbroken hw.2 hw.1, ih, List.singleton_append]

end Separators

-- ============================================================================
-- Patterns
-- ============================================================================

section Patterns

variable {α β : Type*}

/-- As many characters of the class as there are, and then fewer, until what follows matches
    the rest of the pattern. -/
def maxExpand (p : α → Bool) (k : List α → List α → Option β) (run : List α) :
    List α → Option β
  | [] => k run []
  | c :: s => if p c then (maxExpand p k (run ++ [c]) s).or (k run (c :: s)) else k run (c :: s)

/-- The class with `+` after it. -/
def plus (p : α → Bool) (k : List α → List α → Option β) : List α → Option β
  | [] => none
  | c :: s => if p c then maxExpand p k [c] s else none

/-- The pattern at the first place of the text where it matches. -/
def search (m : List α → Option β) : List α → Option β
  | [] => m []
  | c :: s => (m (c :: s)).or (search m s)

variable {p : α → Bool} {k : List α → List α → Option β} {run ds s : List α} {c : α}

theorem maxExpand_append (hds : ∀ c ∈ ds, p c) (hs : ∀ c, s.head? = some c → p c = false)
    (hk : ∀ run c s, p c → k run (c :: s) = none) :
    maxExpand p k run (ds ++ s) = k (run ++ ds) s := by
  induction ds generalizing run with
  | nil =>
      cases s with
      | nil => simp [maxExpand]
      | cons c s =>
          have hc := hs c rfl
          simp [maxExpand, hc]
  | cons d ds ih =>
      have hd : p d := hds d (by simp)
      have ih : maxExpand p k (run ++ [d]) (ds ++ s) = k (run ++ [d] ++ ds) s :=
        ih fun c hc => hds c (List.mem_cons_of_mem d hc)
      simp only [List.cons_append, maxExpand, hd, if_true, ih, hk _ _ _ hd, Option.or_none,
        List.append_assoc, List.nil_append]

/-- Where nothing is gained by giving characters back, the run is the longest one. -/
theorem plus_append (hne : ds ≠ []) (hds : ∀ c ∈ ds, p c)
    (hs : ∀ c, s.head? = some c → p c = false) (hk : ∀ run c s, p c → k run (c :: s) = none) :
    plus p k (ds ++ s) = k ds s := by
  obtain ⟨d, ds, rfl⟩ := List.exists_cons_of_ne_nil hne
  have hd : p d := hds d (by simp)
  have hrest : ∀ c ∈ ds, p c := fun c hc => hds c (List.mem_cons_of_mem d hc)
  have hexpand : maxExpand p k [d] (ds ++ s) = k ([d] ++ ds) s := maxExpand_append hrest hs hk
  simpa [plus, hd] using hexpand

theorem maxExpand_append_some {r : β} (hds : ∀ c ∈ ds, p c)
    (hs : ∀ c, s.head? = some c → p c = false) (hk : k (run ++ ds) s = some r) :
    maxExpand p k run (ds ++ s) = some r := by
  induction ds generalizing run with
  | nil =>
      cases s with
      | nil => simpa [maxExpand] using hk
      | cons c s =>
          have hc := hs c rfl
          simpa [maxExpand, hc] using hk
  | cons d ds ih =>
      have hd : p d := hds d (by simp)
      have ih : maxExpand p k (run ++ [d]) (ds ++ s) = some r :=
        ih (fun c hc => hds c (List.mem_cons_of_mem d hc)) (by simpa using hk)
      simp only [List.cons_append, maxExpand, hd, if_true, ih, Option.some_or]

/-- The longest run, where the rest of the pattern matches after it. -/
theorem plus_append_some {r : β} (hne : ds ≠ []) (hds : ∀ c ∈ ds, p c)
    (hs : ∀ c, s.head? = some c → p c = false) (hk : k ds s = some r) :
    plus p k (ds ++ s) = some r := by
  obtain ⟨d, ds, rfl⟩ := List.exists_cons_of_ne_nil hne
  have hd : p d := hds d (by simp)
  have hrest : ∀ c ∈ ds, p c := fun c hc => hds c (List.mem_cons_of_mem d hc)
  have hexpand : maxExpand p k [d] (ds ++ s) = some r := maxExpand_append_some hrest hs hk
  simpa [plus, hd] using hexpand

theorem plus_cons_of_not (hc : p c = false) : plus p k (c :: s) = none := by
  simp [plus, hc]

theorem search_of_some {m : List α → Option β} {r : β} (h : m s = some r) :
    search m s = some r := by
  cases s with
  | nil => exact h
  | cons c s => simp [search, h]

theorem search_cons_of_none {m : List α → Option β} (h : m (c :: s) = none) :
    search m (c :: s) = search m s := by
  simp [search, h]

end Patterns

-- ============================================================================
-- Numbers
-- ============================================================================

/-- `isspace`, in the "C" locale. -/
def isSpace (c : Char) : Bool := c ∈ [' ', '\t', '\n', '\x0b', '\x0c', '\r']

/-- `%d` -/
def decimal : Int → List Char
  | .ofNat n => Nat.toDigits 10 n
  | .negSucc n => '-' :: Nat.toDigits 10 (n + 1)

/-- `LONG_MAX`, 2^63 - 1 -/
def longMax : Int := 9223372036854775807

/-- `LONG_MIN` -/
def longMin : Int := -9223372036854775808

/-- The digits at the front of the text, and what is after them. -/
def digits (s : List Char) : List Char × List Char :=
  (s.takeWhile (·.isDigit), s.dropWhile (·.isDigit))

/-- The sign in front of a number. -/
def sign : List Char → Bool × List Char
  | '-' :: s => (true, s)
  | '+' :: s => (false, s)
  | s => (false, s)

/-- `strtol(s, &end, 10)`, with what `end` points at. -/
def strtol (s : List Char) : Int × List Char :=
  let (negative, t) := sign (s.dropWhile isSpace)
  let (ds, rest) := digits t
  if ds = [] then (0, s)
  else
    let n : Int := Nat.ofDigitChars 10 ds 0
    (if negative then max longMin (-n) else min longMax n, rest)

section Numbers

variable {n : Int} {spaces rest : List Char}

/-- The text does not go on with a digit. -/
def NoDigit (s : List Char) : Prop := ∀ c, s.head? = some c → c.isDigit = false

theorem isSpace_of_isDigit {c : Char} (h : c.isDigit) : isSpace c = false := by
  by_contra hne
  simp only [isSpace, List.mem_cons, List.not_mem_nil, or_false, decide_eq_true_eq,
    Bool.not_eq_false] at hne
  rcases hne with rfl | rfl | rfl | rfl | rfl | rfl <;> simp at h

theorem isDigit_of_isSpace {c : Char} (h : isSpace c) : c.isDigit = false := by
  by_contra hne
  have := isSpace_of_isDigit (c := c) (by simpa using hne)
  simp_all

theorem digits_append {ds : List Char} (hds : ∀ c ∈ ds, c.isDigit) (hrest : NoDigit rest) :
    digits (ds ++ rest) = (ds, rest) := by
  have hstop : rest.takeWhile (·.isDigit) = [] ∧ rest.dropWhile (·.isDigit) = rest := by
    cases rest with
    | nil => simp
    | cons c rest =>
        have hc := hrest c rfl
        simp [hc]
  simp only [digits]
  rw [List.takeWhile_append_of_pos hds, List.dropWhile_append_of_pos hds, hstop.1, hstop.2,
    List.append_nil]

theorem digits_toDigits (m : Nat) (hrest : NoDigit rest) :
    digits (Nat.toDigits 10 m ++ rest) = (Nat.toDigits 10 m, rest) :=
  digits_append (fun _ hc => Nat.isDigit_of_mem_toDigits (by omega) (by omega) hc) hrest

/-- A printed number starts with its sign or with a digit. -/
theorem toDigits_eq_cons (m : Nat) : ∃ c ds, Nat.toDigits 10 m = c :: ds ∧ c.isDigit := by
  obtain ⟨c, ds, h⟩ := List.exists_cons_of_ne_nil (Nat.toDigits_ne_nil (n := m) (b := 10))
  refine ⟨c, ds, h, ?_⟩
  apply Nat.isDigit_of_mem_toDigits (b := 10) (n := m) (by omega) (by omega)
  simp [h]

theorem sign_toDigits (m : Nat) :
    sign (Nat.toDigits 10 m ++ rest) = (false, Nat.toDigits 10 m ++ rest) := by
  obtain ⟨c, ds, h, hc⟩ := toDigits_eq_cons m
  rw [h, List.cons_append]
  unfold sign
  split
  case h_1 heq => simp_all
  case h_2 heq => simp_all
  case h_3 => rfl

theorem sign_decimal (n : Int) :
    sign (decimal n ++ rest) = (decide (n < 0), Nat.toDigits 10 n.natAbs ++ rest) := by
  cases n with
  | ofNat m => simp [decimal, sign_toDigits]
  | negSucc m => simp [decimal, sign]

theorem dropWhile_isSpace_decimal (hspaces : ∀ c ∈ spaces, isSpace c) (n : Int) :
    (spaces ++ (decimal n ++ rest)).dropWhile isSpace = decimal n ++ rest := by
  rw [List.dropWhile_append_of_pos hspaces]
  cases n with
  | ofNat m =>
      obtain ⟨c, ds, h, hc⟩ := toDigits_eq_cons m
      simp [decimal, h, isSpace_of_isDigit hc]
  | negSucc m => simp [decimal, isSpace]

/-- A printed `long` is read back, after any white space. -/
theorem strtol_decimal (hspaces : ∀ c ∈ spaces, isSpace c) (hmin : longMin ≤ n)
    (hmax : n ≤ longMax) (hrest : NoDigit rest) :
    strtol (spaces ++ (decimal n ++ rest)) = (n, rest) := by
  unfold strtol
  rw [dropWhile_isSpace_decimal hspaces, sign_decimal]
  simp only [digits_toDigits _ hrest, Nat.toDigits_ne_nil, if_false,
    Nat.ofDigitChars_ten_toDigits]
  by_cases hn : n < 0
  · simp only [hn, decide_true, if_true, Prod.mk.injEq, and_true]
    omega
  · simp only [hn, decide_false, Bool.false_eq_true, if_false, Prod.mk.injEq, and_true]
    omega

end Numbers

end ZServer.Lib
