import Mathlib

/-! The `atomic` module: the `Atomic` trait, its two implementations and the `AtomicOption` cell.
A method that mutates through `&self` returns its result with the updated cell. -/
namespace Procpool

/-- `Atomic<T>`: a cell `A` holding a `T`. Only the methods the modelled code calls are
kept; `clone` and `fromValue` are the `Clone` and `From<T>` supertraits. -/
class Atomic (T : outParam Type) (A : Type) where
  get : A → T
  setWith : A → (T → Option T) → T × A
  intoInner : A → T
  fromValue : T → A
  clone : A → A

class AtomicNumber (T : outParam Type) (A : Type) extends Atomic T A where
  add : A → T → T × A

structure AtomicAny (T : Type) where
  lock : T

instance : Atomic T (AtomicAny T) where
  get a := a.lock
  setWith a f := (a.lock, match f a.lock with
    | some value => ⟨value⟩
    | none => a)
  intoInner a := a.lock
  fromValue value := ⟨value⟩
  clone a := ⟨a.lock⟩

/-- The wrapper `atomic!(T)` generates around `std::sync::atomic::Atomic{T}`. `set_with` is
`fetch_update`, which returns the previous value whether or not `f` gave a new one. -/
structure StdAtomic (T : Type) where
  value : T

instance : Atomic T (StdAtomic T) where
  get a := a.value
  setWith a f := (a.value, match f a.value with
    | some value => ⟨value⟩
    | none => a)
  intoInner a := a.value
  fromValue value := ⟨value⟩
  clone a := ⟨a.value⟩

/-- `atomic_number!`: `add` is `fetch_add`, which wraps at the width of the integer. -/
instance : AtomicNumber (BitVec n) (StdAtomic (BitVec n)) where
  add a rhs := (a.value, ⟨a.value + rhs⟩)

abbrev AtomicU32 := StdAtomic (BitVec 32)
abbrev AtomicU64 := StdAtomic (BitVec 64)
abbrev AtomicUsize (w : Nat) := StdAtomic (BitVec w)

/-- What both implementations satisfy: `get` reads back what `from`, `set_with` and `clone`
leave, and `into_inner` is `get`. -/
class LawfulAtomic (T A : Type) [Atomic T A] : Prop where
  get_fromValue : ∀ value : T, Atomic.get (Atomic.fromValue value : A) = value
  intoInner_eq : (Atomic.intoInner : A → T) = Atomic.get
  setWith_fst : ∀ (a : A) (f : T → Option T), (Atomic.setWith a f).1 = Atomic.get a
  get_setWith : ∀ (a : A) (f : T → Option T),
    Atomic.get (Atomic.setWith a f).2 = (f (Atomic.get a)).getD (Atomic.get a)
  get_clone : ∀ a : A, (Atomic.get (Atomic.clone a) : T) = Atomic.get a

instance : LawfulAtomic T (AtomicAny T) where
  get_fromValue _ := rfl
  intoInner_eq := rfl
  setWith_fst _ _ := rfl
  get_setWith a f := by cases h : f a.lock <;> simp [Atomic.setWith, Atomic.get, h]
  get_clone _ := rfl

instance : LawfulAtomic T (StdAtomic T) where
  get_fromValue _ := rfl
  intoInner_eq := rfl
  setWith_fst _ _ := rfl
  get_setWith a f := by cases h : f a.value <;> simp [Atomic.setWith, Atomic.get, h]
  get_clone _ := rfl

attribute [simp] LawfulAtomic.get_fromValue LawfulAtomic.intoInner_eq LawfulAtomic.setWith_fst
  LawfulAtomic.get_setWith LawfulAtomic.get_clone

@[simp] theorem LawfulAtomic.get_comp_fromValue [Atomic T A] [LawfulAtomic T A] :
    (Atomic.get ∘ (Atomic.fromValue : T → A)) = id :=
  funext LawfulAtomic.get_fromValue

@[simp] theorem LawfulAtomic.get_comp_clone [Atomic T A] [LawfulAtomic T A] :
    (Atomic.get ∘ Atomic.clone : A → T) = Atomic.get :=
  funext LawfulAtomic.get_clone

/-- `AtomicOption<P, A>`: an `Option<P>` that is either plain (`Unsync`) or held in an atomic
cell that can be updated through `&self` (`Sync`). -/
inductive AtomicOption (P : Type) (A : Type) where
  | unsync (value : Option P)
  | sync (value : Option A)

inductive MutError where
  | unsync
  | unset
  deriving DecidableEq, Repr

namespace AtomicOption

section Cell
variable {P A : Type} [Atomic P A]

def get : AtomicOption P A → Option P
  | .unsync opt => opt
  | .sync opt => opt.map Atomic.get

def getOrDefault [Inhabited P] (x : AtomicOption P A) : P := x.get.getD default

def set : AtomicOption P A → Option P → Option P × AtomicOption P A
  | .sync opt, some value => (opt.map Atomic.intoInner, .sync (some (Atomic.fromValue value)))
  | .sync opt, none => (opt.map Atomic.intoInner, .sync none)
  | .unsync opt, some value => (opt, .unsync (some value))
  | .unsync opt, none => (opt, .unsync none)

def intoSync : AtomicOption P A → AtomicOption P A
  | .unsync opt => .sync (opt.map Atomic.fromValue)
  | x => x

def intoSyncDefault [Inhabited P] : AtomicOption P A → AtomicOption P A
  | .unsync none | .sync none => .sync (some (Atomic.fromValue default))
  | .unsync opt => .sync (opt.map Atomic.fromValue)
  | x => x

def intoUnsync : AtomicOption P A → AtomicOption P A
  | .sync opt => .unsync (opt.map Atomic.intoInner)
  | x => x

def clone : AtomicOption P A → AtomicOption P A
  | .unsync opt => .unsync opt
  | .sync opt => .sync (opt.map Atomic.clone)

/-- The commented-out `is_sync`. -/
def isSync : AtomicOption P A → Bool
  | .unsync _ => false
  | .sync _ => true

end Cell

/-- The body shared by `add`, `set_max` and `try_update_with`: only a set `Sync` cell is
updated, by `op` on its atomic, and the others are refused unchanged. -/
def mutate (x : AtomicOption P A) (op : A → P × A) : Except MutError P × AtomicOption P A :=
  match x with
  | .unsync _ => (.error .unsync, x)
  | .sync none => (.error .unset, x)
  | .sync (some atomic) => (.ok (op atomic).1, .sync (some (op atomic).2))

def tryUpdateWith [Atomic P A] (x : AtomicOption P A) (f : P → Option P) :
    Except MutError P × AtomicOption P A :=
  x.mutate (Atomic.setWith · f)

def add [AtomicNumber P A] (x : AtomicOption P A) (rhs : P) :
    Except MutError P × AtomicOption P A :=
  x.mutate (AtomicNumber.add · rhs)

def setMax [AtomicNumber P A] [LT P] [DecidableRel (α := P) (· < ·)] (x : AtomicOption P A)
    (rhs : P) : Except MutError P × AtomicOption P A :=
  x.mutate (Atomic.setWith · fun current => if current < rhs then some rhs else none)

section Refinement
variable {P A : Type} [Atomic P A]

/-- `op` updates the cell through `&self`: a set `Sync` cell holding `c` returns `Ok(c)` and
then holds a `c'` with `post c c'`, while an `Unsync` cell and an unset `Sync` cell are refused
with `Unsync` and `Unset` and left as they were. -/
def Mutates (op : AtomicOption P A → Except MutError P × AtomicOption P A)
    (post : P → P → Prop) : Prop :=
  (∀ v, op (.unsync v) = (.error .unsync, .unsync v)) ∧
  op (.sync none) = (.error .unset, .sync none) ∧
  ∀ a, ∃ a', op (.sync (some a)) = (.ok (Atomic.get a), .sync (some a')) ∧
    post (Atomic.get a) (Atomic.get a')

theorem mutate_mutates {op : A → P × A} {post : P → P → Prop}
    (prev : ∀ a, (op a).1 = Atomic.get a) (next : ∀ a, post (Atomic.get a) (Atomic.get (op a).2)) :
    Mutates (·.mutate op) post :=
  ⟨fun _ => rfl, rfl, fun a => ⟨(op a).2, by simp only [mutate, prev], next a⟩⟩

/-- `AtomicOption P A` behaves as a plain `Option P` cell read through `get`. -/
structure OptionCell (P A : Type) [Atomic P A] [Inhabited P] : Prop where
  set : ∀ (x : AtomicOption P A) v,
    (x.set v).1 = x.get ∧ (x.set v).2.get = v ∧ (x.set v).2.isSync = x.isSync
  intoSync : ∀ x : AtomicOption P A, x.intoSync.get = x.get ∧ x.intoSync.isSync = true
  intoUnsync : ∀ x : AtomicOption P A, x.intoUnsync.get = x.get ∧ x.intoUnsync.isSync = false
  intoUnsync_intoSync : ∀ v : Option P,
    (unsync v : AtomicOption P A).intoSync.intoUnsync = unsync v
  intoSyncDefault : ∀ x : AtomicOption P A,
    ∃ a, x.intoSyncDefault = sync (some a) ∧ Atomic.get a = x.getOrDefault
  clone : ∀ x : AtomicOption P A, x.clone.get = x.get
  tryUpdateWith : ∀ f : P → Option P,
    Mutates (A := A) (·.tryUpdateWith f) fun c c' => c' = (f c).getD c

theorem optionCell [LawfulAtomic P A] [Inhabited P] : OptionCell P A where
  set x v := by cases x <;> cases v <;> simp [AtomicOption.set, get, isSync]
  intoSync x := by cases x <;> simp [AtomicOption.intoSync, get, isSync, Option.map_map]
  intoUnsync x := by cases x <;> simp [AtomicOption.intoUnsync, get, isSync]
  intoUnsync_intoSync v := by
    simp [AtomicOption.intoSync, AtomicOption.intoUnsync, Option.map_map]
  intoSyncDefault x := by
    rcases x with (_ | v) | (_ | a) <;>
      simp [AtomicOption.intoSyncDefault, getOrDefault, get]
  clone x := by cases x <;> simp [AtomicOption.clone, get, Option.map_map]
  tryUpdateWith f := mutate_mutates (fun _ => LawfulAtomic.setWith_fst ..)
    fun _ => LawfulAtomic.get_setWith ..

end Refinement

/-- The numeric cells of `atomic_number!` also behave as an `Option` cell under `set_max`,
which keeps the larger value, and under `add`, which adds with wrapping. -/
structure NumberCell (n : Nat) : Prop where
  setMax : ∀ r : BitVec n, Mutates (·.setMax r : AtomicOption (BitVec n) (StdAtomic (BitVec n)) → _)
    fun c c' => c'.toNat = max c.toNat r.toNat
  add : ∀ r : BitVec n, Mutates (·.add r : AtomicOption (BitVec n) (StdAtomic (BitVec n)) → _)
    fun c c' => c' = c + r

theorem numberCell (n : Nat) : NumberCell n where
  setMax r := mutate_mutates (fun _ => rfl) fun ⟨c⟩ => by
    by_cases lt : c < r <;> simp only [BitVec.lt_def] at lt <;>
      simp [Atomic.setWith, Atomic.get, BitVec.lt_def, lt] <;> omega
  add r := mutate_mutates (fun _ => rfl) fun _ => rfl

theorem atomicOption_refines_option :
    (∀ (P : Type) [Inhabited P], OptionCell P (AtomicAny P)) ∧
      (∀ (P : Type) [Inhabited P], OptionCell P (StdAtomic P)) ∧ ∀ n, NumberCell n :=
  ⟨fun _ _ => optionCell, fun _ _ => optionCell, numberCell⟩

end AtomicOption

end Procpool
