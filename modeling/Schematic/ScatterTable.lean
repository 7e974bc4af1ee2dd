/-!
Scatter tables: sets that keep each member at a slot that depends on a number of the member, its
scatter number. Members are listed by their slots, so the order of a listing depends on the members,
on the order of their insertion only where they compete for slots, and on the growth of the table.

A member goes to the first free slot on its way. The way visits the slot that the scatter number
names modulo the size, with its nine neighbours above where the table has them, and jumps on by a
rule that takes in more and more of the number. Two fifths of a table stay free.
-/

namespace Schematic

/-- A set of members with their scatter numbers. The number of slots is a power of two. -/
structure ScatterTable (α : Type) where
  slots : Array (Option (Nat × α))
  used : Nat

namespace ScatterTable

variable {α : Type}

def leastSize : Nat := 8

def empty (size : Nat) : ScatterTable α := ⟨Array.replicate size none, 0⟩

instance : Inhabited (ScatterTable α) := ⟨empty leastSize⟩

def size (t : ScatterTable α) : Nat := t.slots.size

def entries (t : ScatterTable α) : List (Nat × α) := t.slots.toList.filterMap id

def toList (t : ScatterTable α) : List α := t.entries.map Prod.snd

def fits (same : α → Bool) (number : Nat) : Option (Nat × α) → Bool
  | none => true
  | some (n, a) => n == number && same a

def neighbours (size slot : Nat) : List Nat :=
  if slot + 9 < size then (List.range 10).map (slot + ·) else [slot]

/-- The first slot on a way, from a slot on, that is free or holds the member already. A way visits
all slots in the end. -/
def findSlot (t : ScatterTable α) (same : α → Bool) (number : Nat) :
    (jumps slot rest : Nat) → Option Nat
  | 0, _, _ => none
  | jumps + 1, slot, rest =>
    match (neighbours t.size slot).find? fun i => fits same number (t.slots.getD i none) with
    | some i => some i
    | none =>
      let rest := rest / 32
      findSlot t same number jumps ((slot * 5 + 1 + rest) % t.size) rest

/-- The table with a member, unless it has it. The table does not grow. -/
def place (t : ScatterTable α) (same : α → Bool) (number : Nat) (a : α) : ScatterTable α :=
  match t.findSlot same number (t.size + 64) (number % t.size) number with
  | some i =>
    if (t.slots.getD i none).isSome then t
    else ⟨t.slots.setIfInBounds i (some (number, a)), t.used + 1⟩
  | none => t

def sizeAbove (count : Nat) : Nat := leastSize * Nat.pow 2 ((count / leastSize).log2 + 1)

def resized (t : ScatterTable α) (count : Nat) : ScatterTable α :=
  t.entries.foldl (fun u (number, a) => u.place (fun _ => false) number a)
    (empty (if count < leastSize then leastSize else sizeAbove count))

def isCrowded (size count : Nat) : Bool := decide ((size - 1) * 3 ≤ count * 5)

/-- The table with a member. A crowded table grows to more than four times its members. -/
def insert (t : ScatterTable α) (same : α → Bool) (number : Nat) (a : α) : ScatterTable α :=
  let u := t.place same number a
  if t.used < u.used ∧ isCrowded u.size u.used then u.resized (u.used * 4) else u

def prepared (t : ScatterTable α) (count : Nat) : ScatterTable α :=
  if isCrowded t.size (t.used + count) then t.resized ((t.used + count) * 2) else t

def insertAll (t : ScatterTable α) (same : α → α → Bool) (members : List (Nat × α)) :
    ScatterTable α :=
  members.foldl (fun t (number, a) => t.insert (same a) number a) (t.prepared members.length)

def ofList (same : α → α → Bool) (members : List (Nat × α)) : ScatterTable α :=
  members.foldl (fun t (number, a) => t.insert (same a) number a) default

/-- A table with another put into it. An empty table of the same size is replaced by the other. -/
def insertTable (same : α → α → Bool) (t u : ScatterTable α) : ScatterTable α :=
  if t.used = 0 ∧ (t.prepared u.used).size = u.size then u else t.insertAll same u.entries

/-- The members of two tables: a copy of the first, with the second put into it. -/
def union (same : α → α → Bool) (t u : ScatterTable α) : ScatterTable α :=
  insertTable same (insertTable same default t) u

end ScatterTable

end Schematic
