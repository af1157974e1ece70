import StripeRecovery.Proofs.Hands
import StripeRecovery.Proofs.SizeClasses

/-!
How storage goes round between a pool and those who use it. All that a user does comes down to
a few calls. Each of them keeps the shelves in order and the counters in balance, and a buffer
that stands on storage of a class takes it back there. What can stop a call is storage that is
too large, and a shelf without room.
-/
namespace StripeRecovery

namespace Pool

inductive Call where
  | allocate (size : Nat)
  | adopt (bytes : List UInt8) (capacity : Nat)
  | release (b : Buffer)
  | detach (b : Buffer)
  | claim (room : Nat)

def Call.adopts : Call → Bool
  | adopt _ _ => true
  | _ => false

def Call.Runs (settings : PoolSettings) : Call → Prop
  | allocate size => settings.roomFor size ≤ maxStorage
  | release b => ¬ settings.Breaks b
  | claim room => room ≤ maxStorage
  | adopt _ _ => True
  | detach _ => True

def call (p : Pool) : Call → Pool
  | .allocate size => (p.allocate size).1
  | .adopt bytes capacity => (p.adopt bytes capacity).1
  | .release b => p.release b
  | .detach b => p.detach b
  | .claim room => p.claim room

def callAll (p : Pool) (calls : List Call) : Pool := calls.foldl call p

def brings (p : Pool) : Call → Nat
  | .release b => if p.Takes b then 1 else 0
  | _ => 0

def brought : List Call → Pool → Nat
  | [], _ => 0
  | c :: rest, p => p.brings c + brought rest (p.call c)

/-- What was handed out is a hit, a miss or adopted, and what was brought is idle or was a hit. -/
structure Balanced (p : Pool) (adopted brought : Nat) : Prop where
  handed : p.counts.allocated = p.counts.hits + p.counts.misses + adopted
  idle : p.idle + p.counts.hits = brought

structure Served (p : Pool) (size : Nat) (made : Pool × Buffer) : Prop where
  bytes : made.2.bytes = List.replicate size 0
  capacity : made.2.capacity = (p.settings.classFor? size).getD size
  enough : size ≤ made.2.capacity
  pooled : made.2.pooled = true
  fault : made.1.fault = p.fault
  hit : p.Ready size → made.1.counts =
    { p.counts with allocated := p.counts.allocated + 1, hits := p.counts.hits + 1 }
  miss : ¬ p.Ready size → made.1.counts =
    { p.counts with allocated := p.counts.allocated + 1, misses := p.counts.misses + 1 }

variable {p : Pool} {b : Buffer} {c adopted brought : Nat}

theorem call_settings (p : Pool) (c : Call) : (p.call c).settings = p.settings := by
  cases c with
  | allocate size => exact p.allocate_settings size
  | adopt bytes capacity => rfl
  | release b => exact p.release_settings b
  | detach b =>
    simp only [call, detach]
    split <;> rfl
  | claim room => rfl

theorem Stocked.call (stocked : p.Stocked) (c : Call) : (p.call c).Stocked := by
  cases c with
  | allocate size => exact stocked.allocate size
  | adopt bytes capacity => exact ⟨stocked.single, stocked.shelves⟩
  | release b => exact stocked.release b
  | detach b =>
    simp only [Pool.call, detach]
    split
    · exact ⟨stocked.single, stocked.shelves⟩
    · exact stocked
  | claim room => exact ⟨stocked.single, stocked.shelves⟩

theorem Balanced.allocate (balanced : p.Balanced adopted brought) (size : Nat) :
    (p.allocate size).1.Balanced adopted brought := by
  obtain ⟨handed, idle⟩ := balanced
  rw [allocate_eq]
  rcases p.take_cases size with ⟨c, s, rest, _, lying, taken⟩ | ⟨_, taken⟩
  · have moved := p.idle_setShelf c rest (p.take size).1.counts (p.take size).1.fault
    rw [lying, List.length_cons] at moved
    rw [taken] at moved ⊢
    simp only [claim] at moved ⊢
    constructor
    · simp only
      omega
    · simp only
      omega
  · rw [taken]
    refine ⟨?_, idle⟩
    simp only [claim]
    omega

theorem Balanced.release (balanced : p.Balanced adopted brought) (b : Buffer) :
    (p.release b).Balanced adopted (brought + if p.Takes b then 1 else 0) := by
  obtain ⟨handed, idle⟩ := balanced
  rcases p.release_cases b with
    ⟨takes, done⟩ | ⟨⟨_, _, bare⟩, done⟩ | ⟨refused, _, done⟩
  · have moved := p.idle_setShelf b.capacity
      (p.shelf b.capacity ++ [⟨b.bytes ++ b.stale, b.capacity⟩]) (p.release b).counts p.fault
    rw [List.length_append, List.length_singleton] at moved
    rw [done] at moved ⊢
    rw [if_pos takes]
    refine ⟨handed, ?_⟩
    simp only at moved ⊢
    omega
  · rw [done, if_neg fun takes : p.Takes b => by have := takes.2.2; omega]
    exact ⟨handed, idle⟩
  · rw [done, if_neg refused]
    exact ⟨handed, idle⟩

theorem Balanced.call (balanced : p.Balanced adopted brought) (c : Call) :
    (p.call c).Balanced (adopted + if c.adopts then 1 else 0) (brought + p.brings c) := by
  cases c with
  | allocate size => exact balanced.allocate size
  | adopt bytes capacity =>
    refine ⟨?_, balanced.idle⟩
    have handed := balanced.handed
    simp only [Pool.call, Pool.adopt, Call.adopts, ↓reduceIte]
    omega
  | release b => exact balanced.release b
  | detach b =>
    simp only [Pool.call, detach]
    split
    · exact ⟨balanced.handed, balanced.idle⟩
    · exact balanced
  | claim room => exact ⟨balanced.handed, balanced.idle⟩

theorem callAll_settings (p : Pool) (calls : List Call) :
    (p.callAll calls).settings = p.settings := by
  induction calls generalizing p with
  | nil => rfl
  | cons c rest ih => exact (ih (p.call c)).trans (p.call_settings c)

theorem Stocked.callAll (stocked : p.Stocked) (calls : List Call) : (p.callAll calls).Stocked := by
  induction calls generalizing p with
  | nil => exact stocked
  | cons c rest ih => exact ih (stocked.call c)

theorem Balanced.callAll (balanced : p.Balanced adopted brought) (calls : List Call) :
    (p.callAll calls).Balanced (adopted + calls.countP (·.adopts))
      (brought + Pool.brought calls p) := by
  induction calls generalizing p adopted brought with
  | nil => exact balanced
  | cons c rest ih =>
    have later := ih (balanced.call c)
    rw [Nat.add_assoc, Nat.add_assoc, Nat.add_comm _ (rest.countP _)] at later
    rwa [List.countP_cons]

theorem Stocked.make (settings : PoolSettings) : (Pool.make settings).Stocked :=
  ⟨List.nodup_nil, by simp [Pool.make]⟩

theorem Balanced.make (settings : PoolSettings) : (Pool.make settings).Balanced 0 0 := ⟨rfl, rfl⟩

theorem Stocked.allocate_capacity (stocked : p.Stocked) (size : Nat) :
    (p.allocate size).2.capacity = p.settings.roomFor size :=
  congrArg Buffer.capacity (allocate_visible stocked.shelved size)

theorem Stocked.allocate_fault (stocked : p.Stocked) (size : Nat) : (p.allocate size).1.fault =
    p.fault.or (if p.settings.roomFor size ≤ maxStorage then none else some .tooLarge) := by
  have capacity := stocked.allocate_capacity size
  rw [allocate_eq] at capacity ⊢
  rcases p.take_cases size with ⟨c, s, rest, _, _, taken⟩ | ⟨_, taken⟩
  · rw [taken] at capacity ⊢
    have room : grownTo s.capacity size = p.settings.roomFor size := capacity
    rw [← room]
    rfl
  · rw [taken]
    rfl

theorem Stocked.served (stocked : p.Stocked) (least : p.settings.smallest ≤ 2 ^ 63) {size : Nat}
    (fits : p.settings.roomFor size ≤ maxStorage) : p.Served size (p.allocate size) := by
  have capacity := stocked.allocate_capacity size
  have within := p.settings.le_roomFor size
  refine ⟨p.allocate_bytes size, ?_, capacity ▸ within, p.allocate_pooled size, ?_, ?_, ?_⟩
  · rw [capacity, PoolSettings.roomFor_eq least (PoolSettings.small_of_roomFor fits)]
  · rw [stocked.allocate_fault, if_pos fits, Option.or_none]
  · intro ready
    rw [allocate_eq]
    rcases p.take_cases size with ⟨_, _, _, _, _, taken⟩ | ⟨bare, _⟩
    · rw [taken]
      rfl
    · exact absurd ready bare
  · intro bare
    rw [allocate_eq]
    rcases p.take_cases size with ⟨c, s, rest, found, idle, _⟩ | ⟨_, taken⟩
    · exact absurd ⟨c, found, by simp [idle]⟩ bare
    · rw [taken]
      rfl

theorem release_fault_iff (p : Pool) (b : Buffer) :
    (p.release b).fault = none ↔ p.fault = none ∧ ¬ p.settings.Breaks b := by
  rcases p.release_cases b with ⟨takes, done⟩ | ⟨breaks, done⟩ | ⟨_, sound, done⟩
  · have sound : ¬ p.settings.Breaks b := fun breaks => by
      have room := takes.2.2
      have bare := breaks.2.2
      omega
    simp [done, sound]
  · simp [done, stop, breaks]
  · simp [done, sound]

theorem Stocked.call_fault_iff (stocked : p.Stocked) (c : Call) :
    (p.call c).fault = none ↔ p.fault = none ∧ c.Runs p.settings := by
  cases c with
  | allocate size =>
    simp only [Pool.call, stocked.allocate_fault, Option.or_eq_none_iff, Call.Runs]
    simp
  | adopt bytes capacity => simp [Pool.call, adopt, Call.Runs]
  | release b => exact p.release_fault_iff b
  | detach b =>
    simp only [Pool.call, detach, Call.Runs, and_true]
    split <;> rfl
  | claim room =>
    simp only [Pool.call, claim, Option.or_eq_none_iff, Call.Runs]
    simp

theorem Stocked.callAll_fault_iff (stocked : p.Stocked) (calls : List Call) :
    (p.callAll calls).fault = none ↔ p.fault = none ∧ ∀ c ∈ calls, c.Runs p.settings := by
  induction calls generalizing p with
  | nil => exact ⟨fun running => ⟨running, by simp⟩, fun running => running.1⟩
  | cons c rest ih =>
    have later := ih (stocked.call c)
    rw [call_settings, stocked.call_fault_iff] at later
    rw [List.forall_mem_cons, ← and_assoc]
    exact later

/-- What it takes to bring a buffer to a size. The pool is asked only if one of its own buffers is
    outgrown: for another, and to take that one back. -/
def extendCalls (b : Buffer) (size : Nat) : List Call :=
  if b.Outgrown size then if b.pooled then [.allocate size, .release b] else [.claim size] else []

theorem extend_pool (p : Pool) (b : Buffer) (size : Nat) :
    (p.extend b size).1 = p.callAll (extendCalls b size) := by
  unfold extendCalls
  rcases p.extend_cases b size with
    ⟨fits, pool, _⟩ | ⟨outgrown, pooled, pool, _⟩ | ⟨outgrown, unpooled, pool, _⟩
  · rw [pool, if_neg fits]
    rfl
  · rw [pool, if_pos outgrown, if_pos pooled]
    rfl
  · rw [pool, if_pos outgrown, unpooled, if_neg (by simp)]
    rfl

/-- Larger storage can be had for a buffer that is outgrown, of its pool or without one. -/
def Grants (settings : PoolSettings) (b : Buffer) (size : Nat) : Prop :=
  b.Outgrown size → (if b.pooled then settings.roomFor size else size) ≤ maxStorage

end Pool

namespace Scenario

def PoolAction.adopts : PoolAction → Bool
  | adopt _ _ => true
  | _ => false

namespace Shop

def calls (s : Shop) (name : String) : PoolAction → List Pool.Call
  | .allocate size => .allocate size :: (s.get? name).toList.map .release
  | .adopt bytes capacity => .adopt bytes capacity :: (s.get? name).toList.map .release
  | .unpooled _ _ => (s.get? name).toList.map .release
  | .drop => (s.get? name).toList.map .release
  | .extend size =>
    match s.get? name with
    | some b => Pool.extendCalls b size
    | none => []
  | .detach => (s.get? name).toList.map .detach
  | _ => []

/-- The class whose storage the buffer of a name stands on after an action of that name, given
    the one before. A buffer that is outgrown moves to storage of a larger class. -/
def classAfter (s : Shop) (name : String) (before : Option Nat) : PoolAction → Option Nat
  | .allocate size => s.pool.settings.classFor? size
  | .extend size =>
    match s.get? name with
    | some b =>
      if b.Outgrown size then if b.pooled then s.pool.settings.classFor? size else none
      else before
    | none => none
  | .adopt _ _ | .unpooled _ _ | .drop | .detach => none
  | .shorten _ | .fill _ | .show | .showPool | .counts => before

def play : List (String × PoolAction) → Shop → Shop
  | [], s => s
  | (name, a) :: rest, s => play rest (s.act name a).1

def allCalls : List (String × PoolAction) → Shop → List Pool.Call
  | [], _ => []
  | (name, a) :: rest, s => s.calls name a ++ allCalls rest (s.act name a).1

def classOf (name : String) : List (String × PoolAction) → Shop → Option Nat → Option Nat
  | [], _, before => before
  | (other, a) :: rest, s, before =>
    classOf name rest (s.act other a).1
      (if other = name then s.classAfter name before a else before)

structure Belongs (settings : PoolSettings) (b : Buffer) (c : Nat) : Prop where
  pooled : b.pooled = true
  capacity : b.capacity = c
  isClass : settings.IsClass c

def Stands (s : Shop) (name : String) (said : Option Nat) : Prop :=
  ∀ c, said = some c → ∃ b, s.get? name = some b ∧ Belongs s.pool.settings b c

variable {s : Shop} {name other : String} {b : Buffer} {said : Option Nat}

theorem keep_pool (s : Shop) (name : String) (made : Pool × Buffer) :
    (s.keep name made).1.pool = made.1.callAll ((s.get? name).toList.map .release) := by
  unfold keep
  cases s.get? name with
  | none => rfl
  | some b => rfl

theorem act_pool (s : Shop) (name : String) (a : PoolAction) :
    (s.act name a).1.pool = s.pool.callAll (s.calls name a) := by
  cases a with
  | allocate size => exact s.keep_pool name _
  | adopt bytes capacity => exact s.keep_pool name _
  | unpooled bytes capacity => exact s.keep_pool name _
  | drop =>
    simp only [act, calls]
    cases s.get? name with
    | none => rfl
    | some b => rfl
  | extend size =>
    simp only [act, change, calls]
    cases s.get? name with
    | none => rfl
    | some b => exact s.pool.extend_pool b size
  | detach =>
    simp only [act, calls]
    cases s.get? name with
    | none => rfl
    | some b => rfl
  | shorten length =>
    simp only [act, change, calls]
    split <;> rfl
  | fill byte =>
    simp only [act, change, calls]
    split <;> rfl
  | «show» =>
    simp only [act, calls]
    split <;> rfl
  | showPool => rfl
  | counts => rfl

theorem play_pool (script : List (String × PoolAction)) (s : Shop) :
    (play script s).pool = s.pool.callAll (allCalls script s) := by
  induction script generalizing s with
  | nil => rfl
  | cons first rest ih =>
    obtain ⟨name, a⟩ := first
    have later := ih (s.act name a).1
    rw [act_pool] at later
    rw [allCalls, Pool.callAll, List.foldl_append]
    exact later

theorem act_settings (s : Shop) (name : String) (a : PoolAction) :
    (s.act name a).1.pool.settings = s.pool.settings := by
  rw [act_pool]
  exact s.pool.callAll_settings _

theorem act_stocked (stocked : s.pool.Stocked) (name : String) (a : PoolAction) :
    (s.act name a).1.pool.Stocked := by
  rw [act_pool]
  exact stocked.callAll _

theorem act_fault_iff (stocked : s.pool.Stocked) (name : String) (a : PoolAction) :
    (s.act name a).1.pool.fault = none ↔
      s.pool.fault = none ∧ ∀ c ∈ s.calls name a, c.Runs s.pool.settings := by
  rw [act_pool]
  exact stocked.callAll_fault_iff _

theorem play_fault_iff (stocked : s.pool.Stocked) (script : List (String × PoolAction)) :
    (play script s).pool.fault = none ↔
      s.pool.fault = none ∧ ∀ c ∈ allCalls script s, c.Runs s.pool.settings := by
  rw [play_pool]
  exact stocked.callAll_fault_iff _

theorem get?_forget (s : Shop) (name other : String) :
    (s.forget name).get? other = if other = name then none else s.get? other := by
  obtain ⟨pool, kept⟩ := s
  simp only [forget, get?]
  induction kept with
  | nil => simp
  | cons first rest ih =>
    obtain ⟨here, b⟩ := first
    by_cases same : other = here
    · subst same
      by_cases gone : other = name
      · simpa [gone] using ih
      · simp [gone]
    · have apart : (other == here) = false := by simpa using same
      by_cases gone : here = name
      · subst gone
        simpa [same, apart, List.lookup_cons] using ih
      · simpa [gone, apart, List.lookup_cons] using ih

theorem get?_put (s : Shop) (pool : Pool) (name other : String) (b : Buffer) :
    (Shop.mk pool ((s.forget name).kept ++ [(name, b)])).get? other =
      if other = name then some b else s.get? other := by
  have forgotten := s.get?_forget name other
  simp only [get?, List.lookup_append] at forgotten ⊢
  rw [forgotten]
  by_cases same : other = name
  · simp [same]
  · have apart : (other == name) = false := by simpa using same
    simp [same, apart, List.lookup_cons]

theorem get?_change (f : Pool → Buffer → Pool × Buffer) (found : s.get? name = some b) :
    (s.change name f).1.get? name = some (f s.pool b).2 := by
  simp only [change, found, get?_put, ↓reduceIte]

theorem act_other (s : Shop) (a : PoolAction) (apart : other ≠ name) :
    (s.act name a).1.get? other = s.get? other := by
  unfold get?
  rcases s.act_kept name a with same | gone | ⟨b, put⟩
  · rw [same]
  · have left := s.get?_forget name other
    rw [if_neg apart] at left
    rw [gone]
    exact left
  · have left := s.get?_put (s.act name a).1.pool name other b
    rw [if_neg apart] at left
    rw [put]
    exact left

theorem belongs_allocated {p : Pool} {size c : Nat} (stocked : p.Stocked)
    (least : p.settings.smallest ≤ 2 ^ 63) (fits : p.settings.roomFor size ≤ maxStorage)
    (found : p.settings.classFor? size = some c) (pooled : b.pooled = (p.allocate size).2.pooled)
    (capacity : b.capacity = (p.allocate size).2.capacity) : Belongs p.settings b c := by
  have served := stocked.served least fits
  have small : size ≤ 2 ^ 63 := PoolSettings.small_of_roomFor fits
  have isClass := ((PoolSettings.classFor?_eq_some_iff least small).mp found).isClass
  refine ⟨pooled.trans served.pooled, ?_, isClass⟩
  rw [capacity, served.capacity, found]
  rfl

theorem Stands.change (stands : s.Stands name said) {f : Pool → Buffer → Pool × Buffer}
    (keeps : ∀ b, s.get? name = some b → (f s.pool b).2.pooled = b.pooled ∧
      (f s.pool b).2.capacity = b.capacity) :
    ∀ c, said = some c →
      ∃ b, (s.change name f).1.get? name = some b ∧ Belongs s.pool.settings b c := by
  intro c told
  obtain ⟨b, found, pooled, capacity, isClass⟩ := stands c told
  obtain ⟨samePool, sameRoom⟩ := keeps b found
  exact ⟨_, get?_change f found, samePool.trans pooled, sameRoom.trans capacity, isClass⟩

theorem Stands.act (stands : s.Stands name said) (stocked : s.pool.Stocked)
    (least : s.pool.settings.smallest ≤ 2 ^ 63) {a : PoolAction}
    (running : (s.act name a).1.pool.fault = none) :
    (s.act name a).1.Stands name (s.classAfter name said a) := by
  obtain ⟨_, runs⟩ := (act_fault_iff stocked name a).mp running
  unfold Stands
  rw [act_settings]
  cases a with
  | allocate size =>
    intro c found
    have fits := runs (.allocate size) List.mem_cons_self
    refine ⟨(s.pool.allocate size).2, ?_, belongs_allocated stocked least fits found rfl rfl⟩
    simp only [Shop.act, keep, get?_put, ↓reduceIte]
  | adopt bytes capacity => simp [classAfter]
  | unpooled bytes capacity => simp [classAfter]
  | drop => simp [classAfter]
  | detach => simp [classAfter]
  | extend size =>
    simp only [classAfter]
    cases found : s.get? name with
    | none => simp
    | some b =>
      rcases s.pool.extend_cases b size with
        ⟨fits, _, samePool, sameRoom⟩ | ⟨outgrown, pooled, _, newPool, newRoom⟩ |
        ⟨outgrown, unpooled, _⟩
      · simp only [fits, ↓reduceIte]
        refine stands.change fun b' found' => ?_
        obtain rfl := Option.some.inj (found.symm.trans found')
        exact ⟨samePool, sameRoom⟩
      · simp only [outgrown, pooled, ↓reduceIte]
        intro c large
        have fits := runs (.allocate size) (by
          simp [calls, found, Pool.extendCalls, outgrown, pooled])
        exact ⟨_, get?_change _ found, belongs_allocated stocked least fits large newPool newRoom⟩
      · simp [outgrown, unpooled]
  | shorten length =>
    exact stands.change fun b _ => ⟨b.shorten_pooled length, b.shorten_capacity length⟩
  | fill byte => exact stands.change fun b _ => ⟨rfl, rfl⟩
  | «show» =>
    simp only [Shop.act]
    split <;> exact stands
  | showPool => exact stands
  | counts => exact stands

theorem Stands.aside (stands : s.Stands name said) (apart : name ≠ other) (a : PoolAction) :
    (s.act other a).1.Stands name said := by
  intro c told
  rw [s.act_other a apart, act_settings]
  exact stands c told

theorem Stands.play (stands : s.Stands name said) (stocked : s.pool.Stocked)
    (least : s.pool.settings.smallest ≤ 2 ^ 63) (script : List (String × PoolAction))
    (running : (Shop.play script s).pool.fault = none) :
    (Shop.play script s).Stands name (classOf name script s said) := by
  -- Only actions of the name itself touch its buffer or what is said of it.
  induction script generalizing s said with
  | nil => exact stands
  | cons first rest ih =>
    obtain ⟨other, a⟩ := first
    have still := act_stocked stocked other a
    have before : (s.act other a).1.pool.fault = none := ((play_fault_iff still rest).mp running).1
    refine ih ?_ still (by rwa [act_settings]) running
    by_cases here : other = name
    · subst here
      rw [if_pos rfl]
      exact stands.act stocked least before
    · rw [if_neg here]
      exact stands.aside (Ne.symm here) a

end Shop
end Scenario
end StripeRecovery
