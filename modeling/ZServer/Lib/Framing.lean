/-
  ZServer.Lib.Framing

  Cutting a stream into frames while it arrives.

    * `Framer` — what the unread bytes begin with: a whole frame, something
      illegal, or too little to tell.  What is told of some bytes stays true
      when more arrive.
    * `Framer.parse s` — the frames of `s` up to the first illegal one.
    * `Framer.feed` — the same for a stream that arrives in chunks: what is left
      over waits for the next chunk.

  `foldl_feed` says that it does not matter how the stream is cut into chunks,
  and `parse_flatten` is the rule for a stream of encoded messages.
-/

import Mathlib.Data.List.Basic

namespace ZServer.Lib

variable {α β γ : Type*}

/-- What unread bytes begin with. -/
inductive Frame (α β : Type*) where
  | more
  | frame (x : β) (rest : List α)
  | illegal

structure Framer (α β : Type*) where
  next : List α → Frame α β
  rest_lt : ∀ {s x rest}, next s = .frame x rest → rest.length < s.length
  frame_append : ∀ {s x rest} (t), next s = .frame x rest → next (s ++ t) = .frame x (rest ++ t)
  illegal_append : ∀ {s} (t), next s = .illegal → next (s ++ t) = .illegal

/-- The frames found, what has not been read, and whether it begins illegally. -/
@[ext] structure Parsed (α β : Type*) where
  frames : List β
  rest : List α
  illegal : Bool
  deriving DecidableEq, Repr

/-- Nothing has arrived. -/
def Parsed.start : Parsed α β := ⟨[], [], false⟩

/-- The frames `xs` come first. -/
def Parsed.after (xs : List β) (p : Parsed α β) : Parsed α β := { p with frames := xs ++ p.frames }

def Framer.parse (F : Framer α β) (s : List α) : Parsed α β :=
  match _h : F.next s with
  | .more => ⟨[], s, false⟩
  | .illegal => ⟨[], s, true⟩
  | .frame x rest => (F.parse rest).after [x]
  termination_by s.length
  decreasing_by exact F.rest_lt _h

/-- A chunk arrives; nothing is read after something illegal. -/
def Framer.feed (F : Framer α β) (p : Parsed α β) (chunk : List α) : Parsed α β :=
  if p.illegal then p else (F.parse (p.rest ++ chunk)).after p.frames

/-! ## Parsing -/

theorem Parsed.after_after (xs ys : List β) (p : Parsed α β) :
    (p.after ys).after xs = p.after (xs ++ ys) := by
  unfold Parsed.after
  rw [List.append_assoc]

variable {F : Framer α β}

theorem Framer.parse_more {s : List α} (h : F.next s = .more) : F.parse s = ⟨[], s, false⟩ := by
  unfold Framer.parse
  split <;> simp_all

theorem Framer.parse_illegal {s : List α} (h : F.next s = .illegal) :
    F.parse s = ⟨[], s, true⟩ := by
  unfold Framer.parse
  split <;> simp_all

theorem Framer.parse_frame {s rest : List α} {x : β} (h : F.next s = .frame x rest) :
    F.parse s = (F.parse rest).after [x] := by
  rw [Framer.parse]
  split <;> simp_all

/-- More bytes continue the parse where it stopped. -/
theorem Framer.parse_append (s t : List α) :
    F.parse (s ++ t) =
      if (F.parse s).illegal then { F.parse s with rest := (F.parse s).rest ++ t }
      else (F.parse ((F.parse s).rest ++ t)).after (F.parse s).frames := by
  induction h : s.length using Nat.strongRecOn generalizing s with
  | _ n ih =>
      cases hs : F.next s with
      | more =>
          rw [Framer.parse_more hs]
          rfl
      | illegal =>
          rw [Framer.parse_illegal hs, Framer.parse_illegal (F.illegal_append t hs)]
          rfl
      | frame x rest =>
          have hlt : rest.length < n := h ▸ F.rest_lt hs
          rw [Framer.parse_frame hs, Framer.parse_frame (F.frame_append t hs), ih _ hlt rest rfl]
          by_cases hill : (F.parse rest).illegal = true
          · rw [if_pos hill, if_pos (show ((F.parse rest).after [x]).illegal = true from hill)]
            rfl
          · rw [if_neg hill, if_neg (show ¬ ((F.parse rest).after [x]).illegal = true from hill)]
            exact Parsed.after_after ..

/-- A stream of encoded messages is parsed into them. -/
theorem Framer.parse_flatten {encode : γ → List α} {body : γ → β} (hnil : F.next [] = .more)
    (henc : ∀ m t, F.next (encode m ++ t) = .frame (body m) t) (ms : List γ) :
    F.parse (ms.map encode).flatten = ⟨ms.map body, [], false⟩ := by
  induction ms with
  | nil => exact Framer.parse_more hnil
  | cons m ms ih =>
      rw [List.map_cons, List.flatten_cons, Framer.parse_frame (henc m _), ih]
      rfl

/-! ## Chunks -/

theorem Framer.feed_illegal {p : Parsed α β} (h : p.illegal = true) (chunks : List (List α)) :
    chunks.foldl F.feed p = p := by
  induction chunks with
  | nil => rfl
  | cons chunk chunks ih =>
      rw [List.foldl_cons, Framer.feed, if_pos h]
      exact ih

/-- What the chunks give is what the whole stream gives; after something
    illegal, what had not arrived by then is missing from `rest`. -/
theorem Framer.foldl_feed (chunks : List (List α)) (s : List α) :
    (chunks.foldl F.feed (F.parse s)).frames = (F.parse (s ++ chunks.flatten)).frames ∧
      (chunks.foldl F.feed (F.parse s)).illegal = (F.parse (s ++ chunks.flatten)).illegal ∧
      ((F.parse (s ++ chunks.flatten)).illegal = false →
        (chunks.foldl F.feed (F.parse s)).rest = (F.parse (s ++ chunks.flatten)).rest) := by
  induction chunks generalizing s with
  | nil =>
      rw [List.flatten_nil, List.append_nil]
      exact ⟨rfl, rfl, fun _ => rfl⟩
  | cons chunk chunks ih =>
      rw [List.foldl_cons, List.flatten_cons, ← List.append_assoc]
      by_cases hill : (F.parse s).illegal = true
      · have hwhole : F.parse (s ++ chunk ++ chunks.flatten) =
            { F.parse s with rest := (F.parse s).rest ++ (chunk ++ chunks.flatten) } := by
          rw [List.append_assoc, Framer.parse_append, if_pos hill]
        rw [Framer.feed, if_pos hill, Framer.feed_illegal hill, hwhole]
        refine ⟨rfl, rfl, fun hlegal => ?_⟩
        rw [show (F.parse s).illegal = false from hlegal] at hill
        cases hill
      · have hstep : F.feed (F.parse s) chunk = F.parse (s ++ chunk) := by
          rw [Framer.feed, if_neg hill, Framer.parse_append s chunk, if_neg hill]
        rw [hstep]
        exact ih (s ++ chunk)

end ZServer.Lib
