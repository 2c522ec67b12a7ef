import Mathlib
import TirBase.OperationRegisters
import TirBase.Primitives

/-! # Automerge documents

A document is a set of changes. Each change belongs to an actor, carries a sequence number of
that actor and lists operations whose identifiers count up from its start. Merging takes the
union of the changes; a map key or a list element shows its greatest operation that nothing
overwrites. Operations made since the last commit wait in an open transaction. -/
namespace TirBase.Automerge
open OperationRegisters

abbrev ActorId := Bytes

structure OpId where
  counter : ℕ
  actor : ActorId
  deriving DecidableEq

theorem OpId.key_injective :
    Function.Injective fun o : OpId => (toLex (o.counter, o.actor) : ℕ ×ₗ Bytes) := by
  rintro ⟨c, a⟩ ⟨c', a'⟩ h
  simpa using h

/-- Identifiers compare by counter, then by actor bytes. -/
instance : LinearOrder OpId :=
  LinearOrder.lift' (fun o => (toLex (o.counter, o.actor) : ℕ ×ₗ Bytes)) OpId.key_injective

theorem OpId.lt_of_counter_lt {a b : OpId} (h : a.counter < b.counter) : a < b :=
  Prod.Lex.left _ _ h

/-- `ScalarValue`; a double is given by its bits. -/
inductive ScalarValue
  | bytes (b : Bytes)
  | str (s : String)
  | int (n : ℤ)
  | uint (n : ℕ)
  | f64 (bits : Fin (2 ^ 64))
  | counter (n : ℤ)
  | timestamp (n : ℤ)
  | unknown (typeCode : Byte) (b : Bytes)
  | boolean (b : Bool)
  | null
  deriving DecidableEq

inductive ObjType
  | map | list | text | table
  deriving DecidableEq

/-- An object is named by the operation that made it; `none` is `ROOT`. -/
abbrev ObjId := Option OpId

/-- Where an operation acts: a key of a map or an element of a list. -/
inductive Target
  | mapKey (obj : ObjId) (key : String)
  | element (obj : ObjId) (elem : OpId)
  deriving DecidableEq

abbrev Target.root (key : String) : Target := .mapKey none key

inductive Action
  | put (value : ScalarValue)
  | make (type : ObjType)
  | delete
  deriving DecidableEq

/-- What a change records of an operation; `insert` operations name the element they follow,
`none` being the head of the list. -/
inductive OpBody
  | set (target : Target) (action : Action) (pred : List OpId)
  | insert (obj : ObjId) (after : Option OpId) (action : Action)
  deriving DecidableEq

structure Op where
  id : OpId
  body : OpBody
  deriving DecidableEq

/-- An insertion makes the element that carries its own identifier. -/
def Op.target (o : Op) : Target :=
  match o.body with
  | .set target _ _ => target
  | .insert obj _ _ => .element obj o.id

def Op.action (o : Op) : Action :=
  match o.body with
  | .set _ action _ => action
  | .insert _ _ action => action

def Op.pred (o : Op) : List OpId :=
  match o.body with
  | .set _ _ pred => pred
  | .insert _ _ _ => []

def Op.value? (o : Op) : Option ScalarValue :=
  match o.action with
  | .put value => some value
  | _ => none

instance : RegisterOp Op OpId Target where
  opId := Op.id
  register := Op.target
  live o := decide (o.action ≠ .delete)
  overwrites := Op.pred

/-- Operations numbered from `start`. -/
def numberOps (actor : ActorId) (start : ℕ) : List OpBody → List Op
  | [] => []
  | b :: bs => ⟨⟨start, actor⟩, b⟩ :: numberOps actor (start + 1) bs

structure Change where
  actor : ActorId
  seq : ℕ
  startOp : ℕ
  body : List OpBody
  deriving DecidableEq

def Change.ops (c : Change) : List Op := numberOps c.actor c.startOp c.body

def Change.maxOp (c : Change) : ℕ := c.startOp + c.body.length - 1

/-- `AutoCommit`: the committed changes and the operations of the open transaction. -/
structure Document where
  actor : ActorId
  changes : List Change
  pending : List OpBody
  deriving DecidableEq

namespace Document

/-- `AutoCommit::new().with_actor(..)`. -/
def empty (actor : ActorId) : Document := ⟨actor, [], []⟩

def maxOp (d : Document) : ℕ := (d.changes.map Change.maxOp).foldr max 0

def startOp (d : Document) : ℕ := d.maxOp + 1

def pendingOps (d : Document) : List Op := numberOps d.actor d.startOp d.pending

def ops (d : Document) : List Op := d.changes.flatMap Change.ops ++ d.pendingOps

def nextId (d : Document) : OpId := ⟨d.startOp + d.pending.length, d.actor⟩

def nextSeq (d : Document) : ℕ := (d.changes.filter fun c => c.actor == d.actor).length + 1

/-- Close the open transaction; an empty one leaves no change. -/
def commit (d : Document) : Document :=
  if d.pending = [] then d
  else ⟨d.actor, d.changes ++ [⟨d.actor, d.nextSeq, d.startOp, d.pending⟩], []⟩

/-- A change that carries an actor and sequence number already used by another change. -/
def duplicateSeq (d : Document) (c : Change) : Bool :=
  d.changes.any fun c' => c'.actor == c.actor && c'.seq == c.seq && c' != c

/-- `AutoCommit::merge`: both transactions are closed and the missing changes added; fails on
a sequence number that names two changes. -/
def merge (d e : Document) : Option Document :=
  let d := d.commit
  let e := e.commit
  let added := e.changes.filter fun c => !d.changes.contains c
  if added.any (d.duplicateSeq ·) then none else some { d with changes := d.changes ++ added }

def append (d : Document) (b : OpBody) : Document := { d with pending := d.pending ++ [b] }

def winner (d : Document) (t : Target) : Option Op := OperationRegisters.winner d.ops t

/-- The identifiers that a new operation at a target overwrites. -/
def predecessors (d : Document) (t : Target) : List OpId := (visibleAt d.ops t).map Op.id

/-- `AutoCommit::put` of a scalar on `ROOT`, which no key makes fail: writing the value that the
key already shows without conflict adds no operation. -/
def put (d : Document) (key : String) (value : ScalarValue) : Document :=
  match visibleAt d.ops (.root key) with
  | [o] =>
    if o.action = .put value then d
    else d.append (.set (.root key) (.put value) [o.id])
  | _ => d.append (.set (.root key) (.put value) (d.predecessors (.root key)))

/-- The `ROOT` keys that hold something, in key order. -/
def rootKeys (d : Document) : List String :=
  (d.ops.filterMap fun o =>
    match o.target with
    | .mapKey none key => if (d.winner (.root key)).isSome then some key else none
    | _ => none).dedup.insertionSort (· ≤ ·)

/-- The scalar that a `ROOT` key shows. -/
def rootScalar (d : Document) (key : String) : Option ScalarValue :=
  (d.winner (.root key)).bind Op.value?

/-- Place a new element right after its reference, `none` being the head. -/
def insertAfter (after : Option OpId) (elem : OpId) : List OpId → List OpId
  | [] => [elem]
  | e :: es =>
    if after = none then elem :: e :: es
    else if after = some e then e :: elem :: es
    else e :: insertAfter after elem es

/-- All elements of a list, deleted ones included. Insertions are placed in identifier order,
so that of two insertions at one place the greater identifier comes first. -/
def elements (d : Document) (obj : ObjId) : List OpId :=
  let inserts := (d.ops.filter fun o =>
    match o.body with
    | .insert obj' _ _ => decide (obj' = obj)
    | _ => false).insertionSort fun a b => a.id ≤ b.id
  inserts.foldl (fun es o =>
    match o.body with
    | .insert _ after _ => insertAfter after o.id es
    | _ => es) []

/-- `list_range`: the visible elements in order, each with the operation it shows. -/
def listRange (d : Document) (obj : ObjId) : List (OpId × Op) :=
  (d.elements obj).filterMap fun e => (d.winner (.element obj e)).map fun o => (e, o)

/-- `delete` by index. -/
def deleteAt (d : Document) (obj : ObjId) (index : ℕ) : Option Document :=
  ((d.listRange obj)[index]?).map fun item =>
    d.append (.set (.element obj item.1) .delete (d.predecessors (.element obj item.1)))

/-- `insert` by index. -/
def insertAt (d : Document) (obj : ObjId) (index : ℕ) (value : ScalarValue) : Option Document :=
  let range := d.listRange obj
  if index = 0 then some (d.append (.insert obj none (.put value)))
  else (range[index - 1]?).map fun item => d.append (.insert obj (some item.1) (.put value))

end Document

theorem mem_numberOps {actor : ActorId} {start : ℕ} {bs : List OpBody} {o : Op}
    (h : o ∈ numberOps actor start bs) :
    o.id.actor = actor ∧ start ≤ o.id.counter ∧ o.id.counter < start + bs.length := by
  induction bs generalizing start with
  | nil => simp [numberOps] at h
  | cons b bs ih =>
    rcases List.mem_cons.mp h with rfl | h
    · simp
    · obtain ⟨ha, hlo, hhi⟩ := ih h
      refine ⟨ha, by omega, ?_⟩
      simp only [List.length_cons]
      omega

theorem numberOps_append (actor : ActorId) (start : ℕ) (bs bs' : List OpBody) :
    numberOps actor start (bs ++ bs') =
      numberOps actor start bs ++ numberOps actor (start + bs.length) bs' := by
  induction bs generalizing start with
  | nil => simp [numberOps]
  | cons b bs ih =>
    simp only [List.cons_append, numberOps, ih, List.length_cons]
    congr 3
    omega

namespace Document

theorem commit_of_committed {d : Document} (h : d.pending = []) : d.commit = d := if_pos h

@[simp] theorem ops_commit (d : Document) : d.commit.ops = d.ops := by
  by_cases h : d.pending = []
  · rw [commit, if_pos h]
  · simp [commit, h, ops, pendingOps, Change.ops, numberOps]

@[simp] theorem actor_commit (d : Document) : d.commit.actor = d.actor := by
  by_cases h : d.pending = [] <;> simp [commit, h]

@[simp] theorem pending_commit (d : Document) : d.commit.pending = [] := by
  by_cases h : d.pending = [] <;> simp [commit, h]

@[simp] theorem actor_append (d : Document) (b : OpBody) : (d.append b).actor = d.actor := rfl

@[simp] theorem ops_append (d : Document) (b : OpBody) :
    (d.append b).ops = d.ops ++ [⟨d.nextId, b⟩] := by
  simp [append, ops, pendingOps, startOp, maxOp, nextId, numberOps_append, numberOps]

private theorem le_foldr_max {n : ℕ} {ns : List ℕ} (h : n ∈ ns) : n ≤ ns.foldr max 0 := by
  induction ns with
  | nil => simp at h
  | cons m ns ih =>
    rcases List.mem_cons.mp h with rfl | h
    · simp
    · exact (ih h).trans (by simp)

theorem le_maxOp {d : Document} {c : Change} (hc : c ∈ d.changes) : c.maxOp ≤ d.maxOp :=
  le_foldr_max (List.mem_map_of_mem hc)

theorem ops_of_pending {d : Document} (h : d.pending = []) :
    d.ops = d.changes.flatMap Change.ops := by
  simp [ops, pendingOps, h, numberOps]

/-- The next local operation is numbered above every operation held. -/
theorem counter_lt_nextId {d : Document} {o : Op} (ho : o ∈ d.ops) :
    o.id.counter < d.nextId.counter := by
  simp only [ops, List.mem_append, List.mem_flatMap] at ho
  simp only [nextId, startOp]
  rcases ho with ⟨c, hc, ho⟩ | ho
  · have hmax := le_maxOp hc
    obtain ⟨-, -, hlt⟩ := mem_numberOps ho
    simp only [Change.maxOp] at hmax
    omega
  · obtain ⟨-, -, hlt⟩ := mem_numberOps ho
    simp only [startOp] at hlt
    omega

theorem id_lt_nextId {d : Document} {o : Op} (ho : o ∈ d.ops) : o.id < d.nextId :=
  OpId.lt_of_counter_lt (counter_lt_nextId ho)

theorem merge_ops {d e m : Document} (h : d.merge e = some m) :
    SameOps m.ops (d.ops ++ e.ops) := by
  intro o
  simp only [merge] at h
  split_ifs at h
  cases h
  have hd := ops_commit d
  have he := ops_commit e
  simp only [ops, pendingOps, pending_commit, numberOps, List.append_nil] at hd he ⊢
  rw [← hd, ← he]
  simp only [List.mem_flatMap, List.mem_append, List.mem_filter]
  constructor
  · rintro ⟨c, hc | ⟨hc, -⟩, ho⟩
    · exact .inl ⟨c, hc, ho⟩
    · exact .inr ⟨c, hc, ho⟩
  · rintro (⟨c, hc, ho⟩ | ⟨c, hc, ho⟩)
    · exact ⟨c, .inl hc, ho⟩
    · by_cases hold : c ∈ d.commit.changes
      · exact ⟨c, .inl hold, ho⟩
      · exact ⟨c, .inr ⟨hc, by simpa using hold⟩, ho⟩

/-- The operation that `put` adds. -/
def putOp (d : Document) (key : String) (value : ScalarValue) : Op :=
  ⟨d.nextId, .set (.root key) (.put value) (d.predecessors (.root key))⟩

/-- What `put` can do: nothing, when the key shows just that value, or add an operation. -/
theorem put_cases (d : Document) (key : String) (value : ScalarValue) :
    (d.put key value = d ∧ ∃ o, visibleAt d.ops (.root key) = [o] ∧ o.action = .put value) ∨
      d.put key value = d.append (d.putOp key value).body := by
  unfold put
  split
  · rename_i o hvisible
    split_ifs with hsame
    · exact .inl ⟨rfl, o, hvisible, hsame⟩
    · exact .inr (by simp [putOp, predecessors, hvisible])
  · exact .inr rfl

theorem ops_append_putOp (d : Document) (key : String) (value : ScalarValue) :
    (d.append (d.putOp key value).body).ops = d.ops ++ [d.putOp key value] :=
  ops_append d _

@[simp] theorem actor_put (d : Document) (key : String) (value : ScalarValue) :
    (d.put key value).actor = d.actor := by
  rcases put_cases d key value with ⟨hput, -⟩ | hput
  · rw [hput]
  · rw [hput, actor_append]

/-- The identifiers of a document's operations are unique and causally closed. -/
abbrev Valid (d : Document) : Prop := CausallyClosed d.ops

theorem valid_empty (actor : ActorId) : (empty actor).Valid := causallyClosed_nil

/-- A local operation that overwrites operations held at its own target. -/
theorem extends_of_held {d : Document} {b : OpBody}
    (h : ∀ i ∈ (⟨d.nextId, b⟩ : Op).pred, ∃ o ∈ d.ops, o.id = i ∧
      o.target = (⟨d.nextId, b⟩ : Op).target) : Extends d.ops (⟨d.nextId, b⟩ : Op) :=
  ⟨fun _ ho => id_lt_nextId ho, h⟩

theorem held_of_mem_predecessors {d : Document} {t : Target} {i : OpId}
    (h : i ∈ d.predecessors t) : ∃ o ∈ d.ops, o.id = i ∧ o.target = t := by
  obtain ⟨o, ho, rfl⟩ := List.mem_map.mp h
  obtain ⟨hmem, hreg, -⟩ := mem_visibleAt.mp ho
  exact ⟨o, hmem, rfl, hreg⟩

theorem extends_putOp (d : Document) (key : String) (value : ScalarValue) :
    Extends d.ops (d.putOp key value) :=
  extends_of_held fun _ hi => held_of_mem_predecessors hi

theorem Valid.put {d : Document} (hd : d.Valid) (key : String) (value : ScalarValue) :
    (d.put key value).Valid := by
  rcases put_cases d key value with ⟨hput, -⟩ | hput
  · rw [hput]
    exact hd
  · rw [hput, Valid, ops_append_putOp]
    exact (extends_putOp d key value).causallyClosed hd

theorem Valid.winner_putOp {d : Document} (hd : d.Valid) (key : String) (value : ScalarValue) :
    OperationRegisters.winner (d.ops ++ [d.putOp key value]) (.root key) =
      some (d.putOp key value) :=
  (extends_putOp d key value).winner_newest hd rfl

/-- After a `put` the key shows the value. -/
theorem Valid.rootScalar_put_self {d : Document} (hd : d.Valid) (key : String)
    (value : ScalarValue) : (d.put key value).rootScalar key = some value := by
  rcases put_cases d key value with ⟨hput, o, hvisible, haction⟩ | hput
  · simp [hput, rootScalar, winner, OperationRegisters.winner, hvisible, Op.value?, haction]
  · simp only [rootScalar, winner, hput, ops_append_putOp, hd.winner_putOp]
    rfl

/-- A `put` leaves the other `ROOT` keys alone. -/
theorem Valid.winner_put_other {d : Document} (hd : d.Valid) (key : String) (value : ScalarValue)
    {t : Target} (ht : t ≠ .root key) : (d.put key value).winner t = d.winner t := by
  rcases put_cases d key value with ⟨hput, -⟩ | hput
  · rw [hput]
  · rw [winner, winner, hput, ops_append_putOp]
    exact (extends_putOp d key value).winner_other hd.unique ht

end Document

end TirBase.Automerge
