/-
  ZServer.Seri.LuaStack

  The slots that a C function takes on the Lua stack, from its first argument on.

  A call gives the function slots above its arguments, by the contract of Lua as many
  as `LUA_MINSTACK`; and `lua_checkstack` gives it more above the top (`ci->top` in
  `3rd/lua/src/lapi.c`).  What lies in the slots is left out.
-/

import Mathlib.Data.List.Basic

namespace ZServer.Seri

def LUA_MINSTACK : Nat := 20

structure LuaStack where
  /-- `lua_gettop` -/
  top : Nat
  /-- how many slots there are -/
  limit : Nat
  deriving DecidableEq, Repr

namespace LuaStack

/-- A call with `nargs` arguments. -/
def enter (nargs slots : Nat) : LuaStack := ⟨nargs, nargs + slots⟩

/-- `none` where a value would be written beyond the last slot. -/
def push (s : LuaStack) : Option LuaStack :=
  if s.top < s.limit then some { s with top := s.top + 1 } else none

/-- `lua_pop(L, n)` -/
def pop (s : LuaStack) (n : Nat) : LuaStack := { s with top := s.top - n }

/-- `lua_settop(L, 0)` -/
def clear (s : LuaStack) : LuaStack := { s with top := 0 }

/-- `lua_checkstack`, which has given `n` slots above the top. -/
def checkstack (s : LuaStack) (n : Nat) : LuaStack := { s with limit := max s.limit (s.top + n) }

variable {s : LuaStack} {used limit : Nat}

theorem push_of_lt (htop : s.top = used) (hlimit : s.limit = limit) (hlt : used < limit) :
    s.push = some ⟨used + 1, limit⟩ := by
  unfold push
  rw [htop, hlimit, if_pos hlt]

theorem push_of_not_lt (htop : s.top = used) (hlimit : s.limit = limit) (hnot : ¬used < limit) :
    s.push = none := by
  unfold push
  rw [htop, hlimit, if_neg hnot]

end LuaStack

/-- What is needed for all, one after the other. -/
def maxSlots : List Nat → Nat
  | [] => 0
  | n :: ns => max n (maxSlots ns)

theorem maxSlots_le {ns : List Nat} {m : Nat} : maxSlots ns ≤ m ↔ ∀ n ∈ ns, n ≤ m := by
  induction ns with
  | nil => exact iff_of_true (Nat.zero_le m) (by rintro _ ⟨⟩)
  | cons n ns ih =>
      unfold maxSlots
      rw [List.forall_mem_cons, ← ih]
      omega

end ZServer.Seri
