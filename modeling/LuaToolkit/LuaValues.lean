import LuaToolkit.HttpStream
import LuaToolkit.Lib.LastWrite
import LuaToolkit.LuaApi
import Mathlib.Data.List.Nodup
import Mathlib.Data.List.TakeWhile

/-!
# Lua values

The values that a stopped Lua thread holds, as far as the stack trace provider looks into them.
Tables live in a heap and are known by number. What Lua and the application bring along are the
numbers (`lua_Number`, with its conversions) and the `__index` metamethods.
-/

namespace LuaToolkit

/-- `lua_Number` as a type of keys, so that equal numbers are one: `lua_pushinteger` of an `int`,
`lua_tointeger` to a `lua_Integer` of 64 bits, and `std::to_string`. -/
class LuaNumber (N : Type*) where
  ofInt : Int32 → N
  toInteger : N → Int64
  toText : N → Bytes
  toInteger_ofInt : ∀ i, toInteger (ofInt i) = i.toInt64

inductive LuaValue (N : Type*) where
  | nil
  | boolean (value : Bool)
  | lightuserdata (pointer : Nat)
  | number (value : N)
  | string (bytes : Bytes)
  | table (id : Nat)
  | function (id : Nat)
  | userdata (id : Nat)
  | thread (id : Nat)
  deriving DecidableEq

/-- A table: its entries in the order of `lua_next`, and the `__index` of its metatable. -/
structure LuaTable (N : Type*) where
  entries : List (LuaValue N × LuaValue N) := []
  index : Option (LuaValue N → LuaValue N) := none
  keys_nodup : (entries.map Prod.fst).Nodup := by decide
  key_ne_nil : ∀ e ∈ entries, e.1 ≠ .nil := by decide
  value_ne_nil : ∀ e ∈ entries, e.2 ≠ .nil := by decide

abbrev LuaHeap (N : Type*) := Nat → LuaTable N

section Tables

variable {N : Type*} [DecidableEq N]

def LuaTable.rawGet (t : LuaTable N) (key : LuaValue N) : LuaValue N :=
  ((t.entries.find? fun e => e.1 = key).map Prod.snd).getD .nil

/-- `lua_gettable`. -/
def LuaTable.get (t : LuaTable N) (key : LuaValue N) : LuaValue N :=
  match t.rawGet key, t.index with
  | .nil, some index => index key
  | value, _ => value

variable {t : LuaTable N} {key value : LuaValue N}

theorem LuaTable.rawGet_of_mem (h : (key, value) ∈ t.entries) : t.rawGet key = value := by
  have hfind : t.entries.find? (fun e => e.1 = key) = some (key, value) := by
    apply List.find?_of_unique h (by simp)
    intro e he heq
    exact List.inj_on_of_nodup_map t.keys_nodup he h (by simpa using heq)
  unfold LuaTable.rawGet
  rw [hfind]
  rfl

theorem LuaTable.mem_of_rawGet_ne_nil (h : t.rawGet key ≠ .nil) :
    (key, t.rawGet key) ∈ t.entries := by
  unfold LuaTable.rawGet at h ⊢
  cases hfind : t.entries.find? fun e => e.1 = key with
  | none => simp [hfind] at h
  | some e =>
    have hkey : e.1 = key := by simpa using List.find?_some hfind
    have hmem := List.mem_of_find?_eq_some hfind
    rw [← hkey]
    exact hmem

theorem LuaTable.get_of_mem (h : (key, value) ∈ t.entries) : t.get key = value := by
  have hne : value ≠ .nil := t.value_ne_nil _ h
  unfold LuaTable.get
  rw [t.rawGet_of_mem h]
  cases value with
  | nil => exact absurd rfl hne
  | _ => rfl

end Tables

/-- `lua_getlocal`; `none` is the null pointer. -/
def luaGetLocal {ν : Type*} (l : LuaState ν) (ar : LuaDebug) (n : Nat) : Option (Bytes × ν) :=
  match l.stack[ar.i_ci]?, n with
  | some ci, n + 1 => ci.locals[n]?
  | _, _ => none

/-- The bytes of a C string: what `lua_pushstring` pushes. -/
def cString (s : Bytes) : Bytes := s.takeWhile (· ≠ 0)

theorem cString_eq_self {s : Bytes} : cString s = s ↔ 0 ∉ s := by
  unfold cString
  rw [List.takeWhile_eq_self_iff]
  constructor
  · intro h hz
    simpa using h 0 hz
  · intro h b hb
    have : b ≠ 0 := fun hz => h (hz ▸ hb)
    simpa using this

theorem zero_notMem_cString (s : Bytes) : 0 ∉ cString s := by
  intro h
  simpa using List.mem_takeWhile_imp h

end LuaToolkit
