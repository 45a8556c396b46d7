/-
  ZServer.Dict.Names

  The name manager of `src/name_mgr.c` on the hash table of `src/dict.c`.

  `ZServer.Actor.NameMgr` has a list in the place of `M->nameDict`.  Here the calls go to
  a dictionary with `dictGenHashFunction`, whose tables may be in the middle of a move;
  every run of calls, sends and rounds of the workers gives the same results.
-/

import ZServer.Dict.Refines
import ZServer.Actor.NameCalls

namespace ZServer

open Lib

-- ============================================================================
-- The hash function
-- ============================================================================

/-- `m` of `dictGenHashFunction`. -/
def murmurM : UInt32 := 0x5bd1e995

/-- The four bytes at `data` as a `uint32_t`. -/
def murmurWord (b0 b1 b2 b3 : UInt8) : UInt32 :=
  b0.toUInt32 ||| b1.toUInt32 <<< 8 ||| b2.toUInt32 <<< 16 ||| b3.toUInt32 <<< 24

/-- `while(len >= 4)`, and the bytes that are left. -/
def murmurWords : UInt32 → List UInt8 → UInt32 × List UInt8
  | h, b0 :: b1 :: b2 :: b3 :: data =>
      let k := murmurWord b0 b1 b2 b3 * murmurM
      let k := (k ^^^ k >>> 24) * murmurM
      murmurWords (h * murmurM ^^^ k) data
  | h, data => (h, data)

/-- `switch(len)`, whose cases fall through. -/
def murmurTail (h : UInt32) : List UInt8 → UInt32
  | [b0, b1, b2] =>
      (h ^^^ b2.toUInt32 <<< 16 ^^^ b1.toUInt32 <<< 8 ^^^ b0.toUInt32) * murmurM
  | [b0, b1] => (h ^^^ b1.toUInt32 <<< 8 ^^^ b0.toUInt32) * murmurM
  | [b0] => (h ^^^ b0.toUInt32) * murmurM
  | _ => h

def dictHashFunctionSeed : UInt32 := 5381

def dictGenHashFunction (key : List UInt8) : UInt32 :=
  let r := murmurWords (dictHashFunctionSeed ^^^ UInt32.ofNat key.length) key
  let h := murmurTail r.1 r.2
  let h := (h ^^^ h >>> 13) * murmurM
  h ^^^ h >>> 15

/-- `_dictHashFunction`; a character is a byte. -/
def nameHash (name : List Char) : UInt32 :=
  dictGenHashFunction (name.map fun c => UInt8.ofNat c.toNat)

-- ============================================================================
-- The calls
-- ============================================================================

/-- The contexts, without their names in a list, and the dictionary. -/
structure NameServices where
  services : Services
  nameDict : Dict (List Char) Nat

/-- A call that has no business with names. -/
def NameServices.lift {α : Type} (c : NameServices) (r : Option (Services × α)) :
    Option (NameServices × α) :=
  r.map fun r => ({ c with services := r.1 }, r.2)

/-- `nameMgrGetId` -/
def dictGetId (c : NameServices) (name : List Char) : Option (NameServices × Nat) :=
  (dictFetchValue nameHash c.nameDict name).map fun (d, name2id) =>
    ({ c with nameDict := d }, name2id.getD 0)

/-- `nameMgrRegist` -/
def dictRegist (canResize : Bool) (c : NameServices) (name : List Char) (id : Nat) :
    Option (NameServices × Int) :=
  match ctxMgrGetContext c.services id with
  | (st, none) => some ({ c with services := st }, -2)
  | (st, some ctx) =>
      let st := st.set ctx { st.heap ctx with name := snprintfName name }
      (dictAdd nameHash canResize c.nameDict name id).map fun (d, ret) =>
        (⟨ctxMgrReleaseContext st ctx, d⟩, if ret = DICT_OK then 0 else -1)

/-- `nameMgrUnRegist` -/
def dictUnRegist (c : NameServices) (name : List Char) : Option (NameServices × Int) :=
  (dictGetId c name).bind fun (c, id) =>
    -- `id <= 0`
    if id = 0 ∨ 2 ^ 31 ≤ id then some (c, -1)
    else
      (dictDelete nameHash c.nameDict name).map fun (d, ret) =>
        if ret ≠ 0 then ({ c with nameDict := d }, ret)
        else
          match ctxMgrGetContext c.services id with
          | (st, none) => (⟨st, d⟩, ret)
          | (st, some ctx) =>
              (⟨st.set ctx { st.heap ctx with
                name := snprintfName ("c_" ++ toString (intOf (st.heap ctx).id)).toList }, d⟩, ret)

/-- The call, with its result; 0 where it has none. -/
def servicesPerform (st : Services) : ServicesOp → Option (Services × Int)
  | .send ctx fromId toId session type data sz ud =>
      if ∀ p ∈ ctx, st.Live p then workerPoolSend st ctx fromId toId session type data sz ud
      else none
  | .sendName ctx fromId name session type data sz ud =>
      if ∀ p ∈ ctx, st.Live p then
        workerPoolSend st ctx fromId (nameMgrGetId st name) session type data sz ud
      else none
  | .regist name id => some (nameMgrRegist st name id)
  | .unregist name => some (nameMgrUnRegist st name)
  | .create initOk cb => (servicesStep st (.create initOk cb)).map fun st => (st, 0)
  | .setCallback ctx cb => (servicesStep st (.setCallback ctx cb)).map fun st => (st, 0)
  | .handle ctx => (servicesStep st (.handle ctx)).map fun st => (st, 0)

/-- With names in the dictionary; `dict_can_resize` is 1. -/
def NameServices.perform (c : NameServices) (op : ServicesOp) : Option (NameServices × Int) :=
  match op with
  | .sendName ctx fromId name session type data sz ud =>
      if ∀ p ∈ ctx, c.services.Live p then
        (dictGetId c name).bind fun (c, toId) =>
          c.lift (workerPoolSend c.services ctx fromId toId session type data sz ud)
      else none
  | .regist name id => dictRegist true c name id
  | .unregist name => dictUnRegist c name
  | op => c.lift (servicesPerform c.services op)

/-- The list is not there. -/
def Services.nameless (st : Services) : Services := { st with nameDict := [] }

section Nameless

variable (st : Services)

@[simp] theorem nameless_heap : st.nameless.heap = st.heap := rfl

@[simp] theorem nameless_mgr : st.nameless.mgr = st.mgr := rfl

@[simp] theorem nameless_next : st.nameless.next = st.next := rfl

@[simp] theorem nameless_live (p : Ptr) : st.nameless.Live p ↔ st.Live p := Iff.rfl

@[simp] theorem nameless_set (p : Ptr) (ctx : Context) :
    st.nameless.set p ctx = (st.set p ctx).nameless := rfl

@[simp] theorem ctxMgrGetContext_nameless (id : Nat) :
    ctxMgrGetContext st.nameless id =
      ((ctxMgrGetContext st id).1.nameless, (ctxMgrGetContext st id).2) := by
  unfold ctxMgrGetContext
  rw [nameless_mgr]
  cases st.mgr.slot id <;> rfl

@[simp] theorem ctxMgrReleaseContext_nameless (ctx : Ptr) :
    ctxMgrReleaseContext st.nameless ctx = (ctxMgrReleaseContext st ctx).nameless := by
  unfold ctxMgrReleaseContext
  dsimp only [nameless_heap]
  cases (contextRelease (st.heap ctx)).2
  · rfl
  · rfl

theorem ctxMgrCreateContext_nameless (initOk cb : Bool) :
    ctxMgrCreateContext st.nameless initOk cb =
      (ctxMgrCreateContext st initOk cb).map Services.nameless := by
  unfold ctxMgrCreateContext
  dsimp only [nameless_heap, nameless_mgr, nameless_next]
  rw [Option.map_map]
  congr 1
  funext r
  dsimp only [Function.comp_apply]
  split
  · rfl
  · split <;> rfl

theorem sendSession_nameless (ctx : Option Ptr) (session type : Nat) :
    sendSession st.nameless ctx session type =
      (sendSession st ctx session type).map fun r => (r.1.nameless, r.2) := by
  unfold sendSession
  dsimp only [nameless_heap]
  split
  · cases ctx <;> rfl
  · rfl

theorem sendPush_nameless (toctx : Ptr) (msg : Message) :
    sendPush st.nameless toctx msg = (sendPush st toctx msg).map Services.nameless := by
  unfold sendPush
  by_cases hroom : (st.heap toctx).queue.length < queueRoom
  · rw [if_pos hroom]
    refine (if_pos hroom).trans ?_
    by_cases hglobal : ((st.set toctx ((st.heap toctx).push msg)).heap toctx).inGlobal = true
    · dsimp only
      rw [if_pos hglobal]
      refine (if_pos hglobal).trans ?_
      exact congrArg some
        (ctxMgrReleaseContext_nameless (st.set toctx ((st.heap toctx).push msg)) toctx)
    · dsimp only
      rw [if_neg hglobal]
      exact if_neg hglobal
  · rw [if_neg hroom]
    exact if_neg hroom

theorem workerPoolSend_nameless (ctx : Option Ptr) (fromId toId session type : Nat)
    (data : Option Nat) (sz ud : Nat) :
    workerPoolSend st.nameless ctx fromId toId session type data sz ud =
      (workerPoolSend st ctx fromId toId session type data sz ud).map
        fun r => (r.1.nameless, r.2) := by
  unfold workerPoolSend
  dsimp only [nameless_heap]
  by_cases hzero : toId = 0
  · rw [if_pos hzero, if_pos hzero]
    rfl
  · rw [if_neg hzero, if_neg hzero, ctxMgrGetContext_nameless]
    obtain ⟨mid, toctx⟩ := ctxMgrGetContext st toId
    cases toctx with
    | none => rfl
    | some toctx =>
        dsimp only
        rw [sendSession_nameless]
        cases sendSession mid ctx session type with
        | none => rfl
        | some r =>
            dsimp only [Option.map_some, Option.bind_some]
            rw [sendPush_nameless, Option.map_map, Option.map_map]
            rfl

theorem handleRound_nameless (ctx : Ptr) :
    handleRound st.nameless ctx = (handleRound st ctx).map Services.nameless := by
  unfold handleRound
  by_cases hglobal : (st.heap ctx).inGlobal = true
  · rw [if_pos hglobal]
    refine (if_pos hglobal).trans ?_
    rw [nameless_heap]
    cases contextDispatchMessage (st.heap ctx) with
    | none => rfl
    | some r =>
        dsimp only [Option.map_some]
        rw [nameless_set, ctxMgrReleaseContext_nameless]
        split <;> rfl
  · rw [if_neg hglobal]
    exact if_neg hglobal

end Nameless

-- ============================================================================
-- The dictionary in the place of the list
-- ============================================================================

/-- The dictionary holds what the list does. -/
structure NamesIn (st : Services) (c : NameServices) : Prop where
  services : c.services = st.nameless
  names : ∃ keysFreed valsFreed,
    StandsFor nameHash ⟨st.nameDict, keysFreed, valsFreed⟩ c.nameDict

/-- So many names that the tables have room. -/
def FewNames (st : Services) (_ : ServicesOp) : Prop := st.nameDict.length ≤ dictRoom

instance (st : Services) (op : ServicesOp) : Decidable (FewNames st op) :=
  inferInstanceAs (Decidable (_ ≤ _))

/-- Names are compared as lists or with their decidable equality. -/
theorem lookup_names (names : List (List Char × Nat)) (name : List Char) :
    @List.lookup _ _ instBEqOfDecidableEq name names = names.lookup name :=
  (@lookup_eq_find? _ _ _ instBEqOfDecidableEq _ names name).trans
    (lookup_eq_find? names name).symm

section Calls

variable {st mid : Services} {c : NameServices} {name : List Char} {id : Nat} {ctx : Ptr}

/-- A call that has no business with names. -/
theorem NamesIn.lift {α : Type} {r : Option (Services × α)} {st' : Services} {a : α}
    (h : NamesIn st c) (hr : r = some (st', a)) (hnames : st'.nameDict = st.nameDict) :
    ∃ c', c.lift (r.map fun r => (r.1.nameless, r.2)) = some (c', a) ∧ NamesIn st' c' := by
  refine ⟨{ c with services := st'.nameless }, ?_, rfl, ?_⟩
  · rw [hr]
    rfl
  · rw [hnames]
    exact h.names

theorem NamesIn.getId (h : NamesIn st c) (hfew : st.nameDict.length ≤ dictRoom)
    (name : List Char) :
    ∃ c', dictGetId c name = some (c', nameMgrGetId st name) ∧ NamesIn st c' := by
  obtain ⟨keysFreed, valsFreed, hstands⟩ := h.names
  obtain ⟨d', hfetch, hd', -⟩ := dictFetchValue_ok hstands.ok (hstands.room hfew) name
  refine ⟨{ c with nameDict := d' }, ?_, h.services, keysFreed, valsFreed,
    hstands.rearranged hd'⟩
  unfold dictGetId nameMgrGetId
  rw [hfetch, hstands.lookup, lookup_names, Option.map_some]

theorem ctxMgrGetContext_names (hget : ctxMgrGetContext st id = (mid, some ctx)) :
    mid.nameDict = st.nameDict := by
  unfold ctxMgrGetContext at hget
  cases hslot : st.mgr.slot id with
  | none =>
      rw [hslot] at hget
      cases hget
  | some p =>
      rw [hslot] at hget
      cases hget
      rfl

/-- The context with the name that it is to have. -/
def Services.rename (st : Services) (ctx : Ptr) (name : List Char) : Services :=
  st.set ctx { st.heap ctx with name := snprintfName name }

theorem nameMgrRegist_new (hget : ctxMgrGetContext st id = (mid, some ctx))
    (hnew : mid.nameDict.lookup name = none) :
    nameMgrRegist st name id =
      (ctxMgrReleaseContext { mid.rename ctx name with nameDict := (name, id) :: mid.nameDict } ctx,
        0) := by
  unfold nameMgrRegist
  rw [hget]
  exact if_pos (Option.isNone_iff_eq_none.mpr hnew)

theorem nameMgrRegist_taken {old : Nat} (hget : ctxMgrGetContext st id = (mid, some ctx))
    (htaken : mid.nameDict.lookup name = some old) :
    nameMgrRegist st name id = (ctxMgrReleaseContext (mid.rename ctx name) ctx, -1) := by
  unfold nameMgrRegist
  rw [hget]
  apply if_neg
  rw [show (mid.set ctx _).nameDict = mid.nameDict from rfl, htaken]
  exact Bool.false_ne_true

theorem dictRegist_eq {d : Dict (List Char) Nat} {ret : Int} (hservices : c.services = st.nameless)
    (hget : ctxMgrGetContext st id = (mid, some ctx))
    (hadd : dictAdd nameHash true c.nameDict name id = some (d, ret)) :
    dictRegist true c name id =
      some (⟨(ctxMgrReleaseContext (mid.rename ctx name) ctx).nameless, d⟩,
        if ret = DICT_OK then 0 else -1) := by
  unfold dictRegist
  rw [hservices, ctxMgrGetContext_nameless, hget]
  dsimp only
  rw [hadd, Option.map_some]
  rw [show mid.nameless.set ctx { mid.nameless.heap ctx with name := snprintfName name } =
    (mid.rename ctx name).nameless from rfl, ctxMgrReleaseContext_nameless]

theorem NamesIn.regist (h : NamesIn st c) (hfew : st.nameDict.length ≤ dictRoom)
    (name : List Char) (id : Nat) :
    ∃ c', dictRegist true c name id = some (c', (nameMgrRegist st name id).2) ∧
      NamesIn (nameMgrRegist st name id).1 c' := by
  obtain ⟨keysFreed, valsFreed, hstands⟩ := h.names
  cases hget : ctxMgrGetContext st id with
  | mk mid found =>
      cases found with
      | none =>
          have hsame := ctxMgrGetContext_none hget
          refine ⟨c, ?_, ?_⟩
          · unfold dictRegist nameMgrRegist
            rw [h.services, ctxMgrGetContext_nameless, hget, hsame, ← h.services]
          · unfold nameMgrRegist
            rw [hget, hsame]
            exact h
      | some ctx =>
          have hnames := ctxMgrGetContext_names hget
          obtain ⟨d', ret, hadd, hret, hd'⟩ := hstands.add hfew true name id
          cases hlook : st.nameDict.lookup name with
          | none =>
              rw [perform_add_none ((lookup_names _ _).trans hlook)] at hret hd'
              cases hret
              rw [nameMgrRegist_new hget (by rw [hnames, hlook])]
              refine ⟨_, dictRegist_eq h.services hget hadd, ?_, keysFreed, valsFreed, ?_⟩
              · rw [← ctxMgrReleaseContext_nameless, ← ctxMgrReleaseContext_nameless]
                rfl
              · rw [ctxMgrReleaseContext_nameDict, hnames]
                exact hd'
          | some old =>
              rw [perform_add_some ((lookup_names _ _).trans hlook)] at hret hd'
              cases hret
              rw [nameMgrRegist_taken hget (by rw [hnames, hlook])]
              refine ⟨_, dictRegist_eq h.services hget hadd, rfl, keysFreed, valsFreed, ?_⟩
              rw [ctxMgrReleaseContext_nameDict]
              exact hnames ▸ hd'

theorem nameMgrUnRegist_refused (hid : nameMgrGetId st name = 0 ∨ 2 ^ 31 ≤ nameMgrGetId st name) :
    nameMgrUnRegist st name = (st, -1) := if_pos hid

/-- The context gets its first name again. -/
def Services.unname (st : Services) (ctx : Ptr) : Services :=
  st.rename ctx ("c_" ++ toString (intOf (st.heap ctx).id)).toList

/-- The name is no longer in the list. -/
def Services.forget (st : Services) (name : List Char) : Services :=
  { st with nameDict := st.nameDict.filter fun e => e.1 ≠ name }

theorem nameMgrUnRegist_done (hlook : st.nameDict.lookup name = some id)
    (hid : ¬(id = 0 ∨ 2 ^ 31 ≤ id)) :
    nameMgrUnRegist st name =
      match ctxMgrGetContext (st.forget name) id with
      | (st, none) => (st, 0)
      | (st, some ctx) => (st.unname ctx, 0) := by
  have hgetId : nameMgrGetId st name = id := by
    unfold nameMgrGetId
    rw [hlook, Option.getD_some]
  unfold nameMgrUnRegist
  rw [hgetId, if_neg hid, if_neg (by rw [hlook]; exact Bool.false_ne_true)]
  rfl

theorem NamesIn.unregist (h : NamesIn st c) (hfew : st.nameDict.length ≤ dictRoom)
    (name : List Char) :
    ∃ c', dictUnRegist c name = some (c', (nameMgrUnRegist st name).2) ∧
      NamesIn (nameMgrUnRegist st name).1 c' := by
  obtain ⟨mid, hget, hmid⟩ := h.getId hfew name
  by_cases hid : nameMgrGetId st name = 0 ∨ 2 ^ 31 ≤ nameMgrGetId st name
  · rw [nameMgrUnRegist_refused hid]
    refine ⟨mid, ?_, hmid⟩
    unfold dictUnRegist
    rw [hget, Option.bind_some]
    exact if_pos hid
  · -- the number was read from the dictionary, so the name is there
    obtain ⟨id, hlook⟩ : ∃ id, st.nameDict.lookup name = some id := by
      cases hlook : st.nameDict.lookup name with
      | some id => exact ⟨id, rfl⟩
      | none =>
          apply absurd _ hid
          unfold nameMgrGetId
          rw [hlook]
          exact Or.inl rfl
    have hgetId : nameMgrGetId st name = id := by
      unfold nameMgrGetId
      rw [hlook, Option.getD_some]
    rw [hgetId] at hid hget
    obtain ⟨keysFreed, valsFreed, hstands⟩ := hmid.names
    obtain ⟨d', ret, hdelete, hret, hd'⟩ := hstands.genericDelete hfew name false
    rw [delete_some ((lookup_names _ _).trans hlook)] at hret hd'
    cases hret
    rw [nameMgrUnRegist_done hlook hid]
    have hforget : ∃ keysFreed valsFreed,
        StandsFor nameHash ⟨(st.forget name).nameDict, keysFreed, valsFreed⟩ d' := ⟨_, _, hd'⟩
    unfold dictUnRegist dictDelete
    rw [hget, Option.bind_some]
    dsimp only
    rw [if_neg hid, hdelete, Option.map_some, hmid.services]
    dsimp only
    rw [if_neg (by decide), show st.nameless = (st.forget name).nameless from rfl,
      ctxMgrGetContext_nameless]
    cases hctx : ctxMgrGetContext (st.forget name) id with
    | mk last found =>
        cases found with
        | none =>
            have hsame := ctxMgrGetContext_none hctx
            exact ⟨_, rfl, rfl, hsame ▸ hforget⟩
        | some ctx =>
            have hnames := ctxMgrGetContext_names hctx
            refine ⟨_, rfl, rfl, ?_⟩
            show ∃ keysFreed valsFreed,
              StandsFor nameHash ⟨last.nameDict, keysFreed, valsFreed⟩ d'
            rw [hnames]
            exact hforget

-- ============================================================================
-- All calls
-- ============================================================================

theorem sendPush_names {msg : Message} (hpush : sendPush st ctx msg = some mid) :
    mid.nameDict = st.nameDict := by
  unfold sendPush at hpush
  split at hpush
  · dsimp only at hpush
    split at hpush
    · cases hpush
      exact ctxMgrReleaseContext_nameDict _ ctx
    · cases hpush
      rfl
  · cases hpush

theorem workerPoolSend_names {sender : Option Ptr} {fromId toId session type sz ud : Nat}
    {data : Option Nat} {ret : Int}
    (hsend : workerPoolSend st sender fromId toId session type data sz ud = some (mid, ret)) :
    mid.nameDict = st.nameDict := by
  unfold workerPoolSend at hsend
  dsimp only at hsend
  by_cases hzero : toId = 0
  · rw [if_pos hzero] at hsend
    cases hsend
    rfl
  · rw [if_neg hzero] at hsend
    cases hget : ctxMgrGetContext st toId with
    | mk mid' found =>
        rw [hget] at hsend
        cases found with
        | none =>
            cases hsend
            rw [ctxMgrGetContext_none hget]
        | some toctx =>
            obtain ⟨⟨st', session'⟩, hsession, hsend⟩ := Option.bind_eq_some_iff.mp hsend
            obtain ⟨st'', hpush, heq⟩ := Option.map_eq_some_iff.mp hsend
            cases heq
            have hkept : st'.nameDict = mid'.nameDict := by
              unfold sendSession at hsession
              split at hsession
              · obtain ⟨p, -, heq⟩ := Option.map_eq_some_iff.mp hsession
                cases heq
                rfl
              · cases hsession
                rfl
            rw [sendPush_names hpush, hkept, ctxMgrGetContext_names hget]

theorem ctxMgrCreateContext_names {initOk cb : Bool}
    (hcreate : ctxMgrCreateContext st initOk cb = some mid) : mid.nameDict = st.nameDict := by
  unfold ctxMgrCreateContext at hcreate
  obtain ⟨⟨mgr, id, found⟩, -, heq⟩ := Option.map_eq_some_iff.mp hcreate
  dsimp only at heq
  split at heq
  · cases heq
    rfl
  · split at heq <;> cases heq <;> rfl

theorem handleRound_names (hhandle : handleRound st ctx = some mid) :
    mid.nameDict = st.nameDict := by
  unfold handleRound at hhandle
  split at hhandle
  · obtain ⟨⟨rec, result⟩, -, heq⟩ := Option.map_eq_some_iff.mp hhandle
    dsimp only at heq
    split at heq
    · cases heq
      exact ctxMgrReleaseContext_nameDict _ ctx
    · cases heq
      rfl
  · cases hhandle

/-- The calls that do not look at names. -/
def ServicesOp.Nameless : ServicesOp → Prop
  | .sendName .. | .regist .. | .unregist _ => False
  | _ => True

theorem servicesPerform_nameless {op : ServicesOp} (hop : op.Nameless) :
    servicesPerform st.nameless op =
      (servicesPerform st op).map fun r => (r.1.nameless, r.2) := by
  have hvoid : ∀ r : Option Services, (r.map Services.nameless).map (fun st => (st, (0 : Int))) =
      (r.map fun st => (st, (0 : Int))).map fun r => (r.1.nameless, r.2) := by
    intro r
    cases r <;> rfl
  cases op with
  | create initOk cb =>
      unfold servicesPerform servicesStep
      dsimp only
      rw [ctxMgrCreateContext_nameless]
      exact hvoid _
  | setCallback ctx cb =>
      unfold servicesPerform servicesStep
      dsimp only
      by_cases hlive : st.Live ctx
      · rw [if_pos hlive]
        exact congrArg _ (if_pos hlive)
      · rw [if_neg hlive]
        exact congrArg _ (if_neg hlive)
  | send ctx fromId toId session type data sz ud =>
      unfold servicesPerform
      dsimp only
      rw [workerPoolSend_nameless]
      by_cases hlive : ∀ p ∈ ctx, st.Live p
      · rw [if_pos hlive]
        exact if_pos hlive
      · rw [if_neg hlive]
        exact if_neg hlive
  | handle ctx =>
      unfold servicesPerform servicesStep
      dsimp only
      rw [handleRound_nameless]
      exact hvoid _
  | sendName => exact hop.elim
  | regist => exact hop.elim
  | unregist => exact hop.elim

theorem servicesPerform_names {op : ServicesOp} (hop : op.Nameless) {ret : Int}
    (hperform : servicesPerform st op = some (mid, ret)) : mid.nameDict = st.nameDict := by
  cases op with
  | create initOk cb =>
      obtain ⟨st', hstep, heq⟩ := Option.map_eq_some_iff.mp hperform
      cases heq
      exact ctxMgrCreateContext_names hstep
  | setCallback ctx cb =>
      obtain ⟨st', hstep, heq⟩ := Option.map_eq_some_iff.mp hperform
      cases heq
      unfold servicesStep at hstep
      dsimp only at hstep
      split at hstep
      · cases hstep
        rfl
      · cases hstep
  | send ctx fromId toId session type data sz ud =>
      unfold servicesPerform at hperform
      dsimp only at hperform
      split at hperform
      · exact workerPoolSend_names hperform
      · cases hperform
  | handle ctx =>
      obtain ⟨st', hstep, heq⟩ := Option.map_eq_some_iff.mp hperform
      cases heq
      exact handleRound_names hstep
  | sendName => exact hop.elim
  | regist => exact hop.elim
  | unregist => exact hop.elim

end Calls

theorem names_simulates :
    Simulates NamesIn FewNames servicesPerform NameServices.perform where
  step := by
    intro st c op st' ret h hfew hperform
    have hplain : op.Nameless → ∃ c', c.lift (servicesPerform c.services op) = some (c', ret) ∧
        NamesIn st' c' := by
      intro hop
      rw [h.services, servicesPerform_nameless hop]
      exact h.lift hperform (servicesPerform_names hop hperform)
    cases op with
    | create initOk cb => exact hplain trivial
    | setCallback ctx cb => exact hplain trivial
    | send ctx fromId toId session type data sz ud => exact hplain trivial
    | handle ctx => exact hplain trivial
    | sendName ctx fromId name session type data sz ud =>
        obtain ⟨mid, hget, hmid⟩ := h.getId hfew name
        unfold servicesPerform at hperform
        dsimp only at hperform
        split at hperform
        · rename_i hlive
          obtain ⟨c', hsend, hc'⟩ := hmid.lift hperform (workerPoolSend_names hperform)
          refine ⟨c', ?_, hc'⟩
          unfold NameServices.perform
          dsimp only
          rw [if_pos (by rw [h.services]; exact hlive), hget, Option.bind_some, hmid.services,
            workerPoolSend_nameless]
          exact hsend
        · cases hperform
    | regist name id =>
        have heq : nameMgrRegist st name id = (st', ret) := Option.some.inj hperform
        have hregist := h.regist hfew name id
        rwa [heq] at hregist
    | unregist name =>
        have heq : nameMgrUnRegist st name = (st', ret) := Option.some.inj hperform
        have hunregist := h.unregist hfew name
        rwa [heq] at hunregist

/-- Before the first call. -/
def nameServicesInit (setsize : Nat) : NameServices :=
  ⟨(servicesInit setsize).nameless, dictCreate⟩

/-- With the names in a hash table every run gives the results that it gives with a list,
    for as long as there are at most `2 ^ 29` names. -/
theorem names_refine_list (setsize : Nat) (ops : List ServicesOp) (st : Services)
    (rets : List Int) (hfew : AllSteps (moves servicesPerform) FewNames (servicesInit setsize) ops)
    (hrun : answersFrom servicesPerform (servicesInit setsize) ops = some (st, rets)) :
    ∃ c, answersFrom NameServices.perform (nameServicesInit setsize) ops = some (c, rets) ∧
      NamesIn st c :=
  names_simulates.run ⟨rfl, [], [], StandsFor.create⟩ hfew hrun

/-- A context is named twice, spoken to by its name, and loses it. -/
def sampleCalls : List ServicesOp :=
  [.create true true, .regist ['a'] 1, .regist ['a'] 1, .regist ['b'] 7,
    .sendName none 0 ['a'] 5 0 none 0 0, .sendName none 0 ['b'] 5 0 none 0 0, .unregist ['a'],
    .unregist ['a']]

theorem names_refine_list_sample :
    ∃ st c, answersFrom NameServices.perform (nameServicesInit 4) sampleCalls =
        some (c, [0, 0, -1, -2, 5, -1, 0, -1]) ∧
      NamesIn st c := by
  obtain ⟨st, hrun⟩ : ∃ st, answersFrom servicesPerform (servicesInit 4) sampleCalls =
      some (st, [0, 0, -1, -2, 5, -1, 0, -1]) := ⟨_, rfl⟩
  exact ⟨st, names_refine_list 4 sampleCalls st _ (by decide) hrun⟩

end ZServer
