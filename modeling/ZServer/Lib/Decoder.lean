/-
  ZServer.Lib.Decoder

  Decoders: plans that say what a list means from its front, or why it means nothing.

    * `Decoder.Within n k P d` — on fewer than `n` elements `d` takes at least
      `k` of them, or fails with an error that meets `P`.
    * `Decoder.Extends S d d'` — `d` on a front of a list says and asks for what `d'` does
      on the whole, or fails with an error that meets `S` before that.

  Each has a rule for every way a decoder is built.
-/

import ZServer.Lib.Asking

namespace ZServer.Lib

abbrev Decoder (β δ ε : Type) (α : Type) := Plan (List β) δ ε α

namespace Decoder

variable {β δ ε α γ : Type}

/-- The first `n` elements; `e` if there are fewer. -/
def take (e : ε) (n : Nat) : Decoder β δ ε (List β) := fun bs =>
  if n ≤ bs.length then ⟨[], .ok (bs.take n, bs.drop n)⟩ else ⟨[], .error e⟩

theorem take_append (e : ε) {n : Nat} {xs : List β} (h : xs.length = n) (rest : List β) :
    (take e n : Decoder β δ ε _) (xs ++ rest) = ⟨[], .ok (xs, rest)⟩ := by
  subst h
  unfold take
  rw [if_pos (by simp), List.take_left, List.drop_left]

theorem length_of_take {e : ε} {n : Nat} {bs xs rest : List β}
    (h : ((take e n : Decoder β δ ε _) bs).result = .ok (xs, rest)) : xs.length = n := by
  unfold take at h
  split at h
  · cases h
    exact List.length_take_of_le ‹_›
  · cases h

/-! ## How much is taken -/

def Within (n k : Nat) (P : ε → Prop) (d : Decoder β δ ε α) : Prop :=
  ∀ bs : List β, bs.length < n →
    (∀ a rest, (d bs).result = .ok (a, rest) → rest.length + k ≤ bs.length) ∧
      ∀ e, (d bs).result = .error e → P e

variable {n k l : Nat} {P : ε → Prop}

theorem Within.pure (a : α) : Within n 0 P (pure a : Decoder β δ ε α) := by
  intro bs _
  refine ⟨fun a' rest h => ?_, fun e h => ?_⟩
  · cases h
    exact Nat.le_refl _
  · cases h

theorem Within.ask (d : δ) : Within n 0 P (Plan.ask d : Decoder β δ ε Unit) := by
  intro bs _
  refine ⟨fun a' rest h => ?_, fun e h => ?_⟩
  · cases h
    exact Nat.le_refl _
  · cases h

theorem Within.fail {e : ε} (he : P e) : Within n k P (Plan.fail e : Decoder β δ ε α) := by
  intro bs _
  refine ⟨fun a' rest h => ?_, fun e' h => ?_⟩
  · cases h
  · cases h
    exact he

theorem Within.take {e : ε} (he : P e) (k : Nat) :
    Within n k P (take e k : Decoder β δ ε (List β)) := by
  intro bs _
  unfold Decoder.take
  split
  · rename_i hk
    refine ⟨fun a rest h => ?_, fun e' h => ?_⟩
    · cases h
      rw [List.length_drop]
      omega
    · cases h
  · refine ⟨fun a rest h => ?_, fun e' h => ?_⟩
    · cases h
    · cases h
      exact he

theorem Within.bind {d : Decoder β δ ε α} {f : α → Decoder β δ ε γ} (hd : Within n k P d)
    (hf : ∀ a, Within (n - k) l P (f a)) : Within n (k + l) P (d >>= f) := by
  intro bs hbs
  obtain ⟨hok, herror⟩ := hd bs hbs
  rcases h : d bs with ⟨asks, e | ⟨a, rest⟩⟩
  · rw [Plan.bind_of_error h]
    refine ⟨fun a rest ha => ?_, fun e' he' => ?_⟩
    · cases ha
    · cases he'
      exact herror e (by rw [h])
  · have hrest := hok a rest (by rw [h])
    obtain ⟨hok', herror'⟩ := hf a rest (by omega)
    rw [Plan.bind_of_ok h]
    refine ⟨fun c rest' hc => ?_, herror'⟩
    have hc' := hok' c rest' hc
    omega

/-- What follows may take nothing. -/
theorem Within.bind_any {d : Decoder β δ ε α} {f : α → Decoder β δ ε γ} (hd : Within n k P d)
    (hf : ∀ a, Within (n - k) 0 P (f a)) : Within n k P (d >>= f) :=
  hd.bind hf

theorem Within.map {d : Decoder β δ ε α} (f : α → γ) (hd : Within n k P d) :
    Within n k P (f <$> d) :=
  hd.bind_any fun a => Within.pure (f a)

/-- Something is asked for first. -/
theorem Within.ask_then (x : δ) {d : Decoder β δ ε α} (hd : Within n k P d) :
    Within n k P (Plan.ask x >>= fun _ => d) := by
  have h : Within n (0 + k) P (Plan.ask x >>= fun _ => d) := (Within.ask x).bind fun _ => hd
  rwa [Nat.zero_add] at h

/-- Fewer elements, and less to take. -/
theorem Within.mono {d : Decoder β δ ε α} {n' k' : Nat} (h : Within n k P d) (hn : n' ≤ n)
    (hk : k' ≤ k) : Within n' k' P d := fun bs hbs =>
  have hw := h bs (by omega)
  ⟨fun a rest ha => by have hr := hw.1 a rest ha; omega, hw.2⟩

/-! ## Fronts of longer lists -/

/-- What `d` says of a list `d'` says of every longer one, and asks for the same; unless `d`
    fails for want of more, with an error that meets `S`: then it has asked for a first
    part of that. -/
def Extends (S : ε → Prop) (d d' : Decoder β δ ε α) : Prop :=
  ∀ bs more : List β,
    (∀ a rest, (d bs).result = .ok (a, rest) →
      d' (bs ++ more) = ⟨(d bs).asks, .ok (a, rest ++ more)⟩) ∧
    ∀ e, (d bs).result = .error e →
      (d bs).asks <+: (d' (bs ++ more)).asks ∧ (S e ∨ (d' (bs ++ more)).result = .error e)

variable {S : ε → Prop}

theorem Extends.pure (a : α) : Extends S (pure a : Decoder β δ ε α) (pure a) := by
  intro bs more
  constructor
  · intro a' rest h
    cases h
    rfl
  · intro e h
    cases h

theorem Extends.ask (x : δ) : Extends S (Plan.ask x : Decoder β δ ε Unit) (Plan.ask x) := by
  intro bs more
  constructor
  · intro a' rest h
    cases h
    rfl
  · intro e h
    cases h

theorem Extends.fail (e : ε) : Extends S (Plan.fail e : Decoder β δ ε α) (Plan.fail e) := by
  intro bs more
  constructor
  · intro a rest h
    cases h
  · intro e' h
    exact ⟨List.prefix_refl _, Or.inr h⟩

/-- A failure for want of more says nothing of what longer lists are. -/
theorem Extends.want {e : ε} (he : S e) (d' : Decoder β δ ε α) : Extends S (Plan.fail e) d' := by
  intro bs more
  constructor
  · intro a rest h
    cases h
  · intro e' h
    cases h
    exact ⟨List.nil_prefix, Or.inl he⟩

theorem Extends.take {e : ε} (he : S e) (k : Nat) :
    Extends S (take e k : Decoder β δ ε (List β)) (take e k) := by
  intro bs more
  unfold Decoder.take
  by_cases hk : k ≤ bs.length
  · have hk' : k ≤ (bs ++ more).length := by
      simp only [List.length_append]
      omega
    rw [if_pos hk, if_pos hk']
    constructor
    · intro a rest h
      cases h
      rw [List.take_append_of_le_length hk, List.drop_append_of_le_length hk]
    · intro e' h
      cases h
  · rw [if_neg hk]
    constructor
    · intro a rest h
      cases h
    · intro e' h
      cases h
      exact ⟨List.nil_prefix, Or.inl he⟩

theorem Extends.bind {d d' : Decoder β δ ε α} {f f' : α → Decoder β δ ε γ} (hd : Extends S d d')
    (hf : ∀ a, Extends S (f a) (f' a)) : Extends S (d >>= f) (d' >>= f') := by
  intro bs more
  obtain ⟨hok, herror⟩ := hd bs more
  rcases h : d bs with ⟨asks, e | ⟨a, rest⟩⟩
  · rw [h] at herror
    obtain ⟨hasks, hmore⟩ := herror e rfl
    rw [Plan.bind_of_error h]
    constructor
    · intro c rest hc
      cases hc
    · intro e' he'
      cases he'
      rcases h' : d' (bs ++ more) with ⟨asks', e' | ⟨a', rest'⟩⟩
      · rw [h'] at hasks hmore
        rw [Plan.bind_of_error h']
        refine ⟨hasks, hmore.imp_right ?_⟩
        rintro ⟨⟩
        rfl
      · rw [h'] at hasks hmore
        rw [Plan.bind_of_ok h']
        refine ⟨hasks.trans (List.prefix_append _ _), Or.inl (hmore.resolve_right ?_)⟩
        rintro ⟨⟩
  · rw [h] at hok
    rw [Plan.bind_of_ok h, Plan.bind_of_ok (hok a rest rfl)]
    obtain ⟨hok', herror'⟩ := hf a rest more
    constructor
    · intro c rest' hc
      rw [hok' c rest' hc]
    · intro e he
      obtain ⟨hasks, hmore⟩ := herror' e he
      exact ⟨(List.prefix_append_right_inj asks).mpr hasks, hmore⟩

theorem Extends.map {d d' : Decoder β δ ε α} (f : α → γ) (hd : Extends S d d') :
    Extends S (f <$> d) (f <$> d') :=
  hd.bind fun a => Extends.pure (f a)

end Decoder

end ZServer.Lib
