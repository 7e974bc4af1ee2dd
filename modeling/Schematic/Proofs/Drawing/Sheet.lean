import Mathlib.Data.Set.Function
import Mathlib.Data.List.Nodup

/-! Drawings as sheets: blocks within blocks, each with the ports declared in it and the edges
stated in it. A sheet can be written as a flow of marks and read back, and it can be local: its
edges join ports of neighbouring blocks, each declared in one place. -/

namespace Schematic

/-- A block as a drawing shows it: what it is called, the ports that it declares, the edges that
stand in it, and the blocks inside it. -/
inductive Sheet (κ π ω : Type) where
  | block (name : κ) (ports : List π) (edges : List ω) (inner : List (Sheet κ π ω))

/-- What an edge refers to: two ports, and if it names them the blocks that declare these. -/
structure Joint (κ π : Type) where
  source : π
  target : π
  owners : Option (κ × κ) := none

namespace Joint

variable {κ κ' π π' : Type}

def map (f : κ → κ') (p : π → π') (j : Joint κ π) : Joint κ' π' :=
  ⟨p j.source, p j.target, j.owners.map (Prod.map f f)⟩

def nameless (j : Joint κ π) : Joint κ π := { j with owners := none }

end Joint

namespace Sheet

variable {κ κ' π π' ω ω' : Type}

def name : Sheet κ π ω → κ
  | block k _ _ _ => k

def ports : Sheet κ π ω → List π
  | block _ ps _ _ => ps

def edges : Sheet κ π ω → List ω
  | block _ _ es _ => es

def inner : Sheet κ π ω → List (Sheet κ π ω)
  | block _ _ _ ss => ss

mutual

def map (f : κ → κ') (p : π → π') (e : ω → ω') : Sheet κ π ω → Sheet κ' π' ω'
  | block k ps es inner => block (f k) (ps.map p) (es.map e) (mapAll f p e inner)

def mapAll (f : κ → κ') (p : π → π') (e : ω → ω') : List (Sheet κ π ω) → List (Sheet κ' π' ω')
  | [] => []
  | s :: ss => map f p e s :: mapAll f p e ss

end

mutual

def blocks : Sheet κ π ω → List (Sheet κ π ω)
  | block k ps es inner => block k ps es inner :: blocksAll inner

def blocksAll : List (Sheet κ π ω) → List (Sheet κ π ω)
  | [] => []
  | s :: ss => blocks s ++ blocksAll ss

end

/-- The ports that are declared, each with the name of the block that declares it. -/
def declarations (ss : List (Sheet κ π ω)) : List (κ × π) :=
  (blocksAll ss).flatMap fun b => b.ports.map fun p => (b.name, p)

section

variable {f : κ → κ'} {p : π → π'} {e : ω → ω'} {s b : Sheet κ π ω} {ss ts : List (Sheet κ π ω)}

theorem mapAll_eq (ss : List (Sheet κ π ω)) : mapAll f p e ss = ss.map (map f p e) := by
  induction ss with
  | nil => rfl
  | cons s ss ih => rw [mapAll, ih, List.map_cons]

theorem mapAll_append (ss ts : List (Sheet κ π ω)) :
    mapAll f p e (ss ++ ts) = mapAll f p e ss ++ mapAll f p e ts := by
  simp only [mapAll_eq, List.map_append]

theorem blocksAll_append (ss ts : List (Sheet κ π ω)) :
    blocksAll (ss ++ ts) = blocksAll ss ++ blocksAll ts := by
  induction ss with
  | nil => rfl
  | cons s ss ih => simp only [List.cons_append, blocksAll, ih, List.append_assoc]

@[simp] theorem name_map (s : Sheet κ π ω) : (s.map f p e).name = f s.name := by
  cases s; rfl

@[simp] theorem ports_map (s : Sheet κ π ω) : (s.map f p e).ports = s.ports.map p := by
  cases s; rfl

@[simp] theorem edges_map (s : Sheet κ π ω) : (s.map f p e).edges = s.edges.map e := by
  cases s; rfl

@[simp] theorem inner_map (s : Sheet κ π ω) : (s.map f p e).inner = s.inner.map (map f p e) := by
  cases s
  exact mapAll_eq _

mutual

theorem blocks_map : ∀ s : Sheet κ π ω, (s.map f p e).blocks = s.blocks.map (map f p e)
  | block k ps es inner => by
    rw [map, blocks, blocks, blocksAll_mapAll inner, List.map_cons, map]

theorem blocksAll_mapAll : ∀ ss : List (Sheet κ π ω),
    blocksAll (mapAll f p e ss) = (blocksAll ss).map (map f p e)
  | [] => rfl
  | s :: ss => by
    rw [mapAll, blocksAll, blocks_map s, blocksAll_mapAll ss, blocksAll, List.map_append]

end

theorem declarations_mapAll (ss : List (Sheet κ π ω)) :
    declarations (mapAll f p e ss) = (declarations ss).map (Prod.map f p) := by
  simp only [declarations, blocksAll_mapAll, List.flatMap_map, List.map_flatMap, name_map,
    ports_map, List.map_map]
  rfl

end

/-- Whether an edge that stands in a block joins two ports that are declared, one in the block and
one in a block directly inside it, or in two blocks directly inside it. If the edge names blocks, it
names these. -/
structure Joins (ss : List (Sheet κ π ω)) (b : Sheet κ π ω) (j : Joint κ π) (source target : κ) :
    Prop where
  apart : j.source ≠ j.target
  leaves : (source, j.source) ∈ declarations ss
  enters : (target, j.target) ∈ declarations ss
  goal : target ∈ b.inner.map name
  start : source = b.name ∨ source ∈ b.inner.map name ∧ source ≠ target
  owners : ∀ named ∈ j.owners, named = (source, target)

/-- Whether all edges of a drawing join neighbours, while no block is shown and no port is declared
in two places. -/
structure AreLocal (joint : ω → Joint κ π) (ss : List (Sheet κ π ω)) : Prop where
  shownOnce : ((blocksAll ss).map name).Nodup
  declaredOnce : ((declarations ss).map Prod.snd).Nodup
  joins : ∀ b ∈ blocksAll ss, ∀ e ∈ b.edges, ∃ source target, Joins ss b (joint e) source target

section

variable {joint : ω → Joint κ π} {joint' : ω' → Joint κ' π'} {f : κ → κ'} {p : π → π'} {e : ω → ω'}
  {ss : List (Sheet κ π ω)} {b : Sheet κ π ω} {s : Sheet κ π ω}

theorem name_mem_of_declared {k : κ} {q : π} (declared : (k, q) ∈ declarations ss) :
    k ∈ (blocksAll ss).map name := by
  simp only [declarations, List.mem_flatMap, List.mem_map, Prod.mk.injEq] at declared
  obtain ⟨b, hb, -, -, rfl, -⟩ := declared
  exact List.mem_map_of_mem hb

/-- A drawing stays local if its edges name no blocks any more. -/
theorem AreLocal.nameless (here : AreLocal joint ss) :
    AreLocal (fun w => (joint w).nameless) ss where
  shownOnce := here.shownOnce
  declaredOnce := here.declaredOnce
  joins := by
    intro b hb w hw
    obtain ⟨source, target, joins⟩ := here.joins b hb w hw
    exact ⟨source, target, { joins with owners := nofun }⟩

/-- Words that tell blocks apart and ports apart keep a drawing local. -/
theorem AreLocal.mapAll (here : AreLocal joint ss)
    (blocksTold : Set.InjOn f {k | k ∈ (blocksAll ss).map name})
    (portsTold : Set.InjOn p {q | q ∈ (declarations ss).map Prod.snd})
    (words : ∀ w, joint' (e w) = (joint w).map f p) :
    AreLocal joint' (mapAll f p e ss) := by
  have kept {k : κ} {q : π} (declared : (k, q) ∈ declarations ss) :
      (f k, p q) ∈ declarations (Sheet.mapAll f p e ss) := by
    rw [declarations_mapAll]
    exact List.mem_map_of_mem declared
  constructor
  · rw [blocksAll_mapAll, List.map_map, show name ∘ map f p e = f ∘ name from
      funext fun s : Sheet κ π ω => name_map s, ← List.map_map]
    exact here.shownOnce.map_on fun x hx y hy same => blocksTold hx hy same
  · rw [declarations_mapAll, List.map_map, show Prod.snd ∘ Prod.map f p = p ∘ Prod.snd from rfl,
      ← List.map_map]
    exact here.declaredOnce.map_on fun x hx y hy same => portsTold hx hy same
  · rw [blocksAll_mapAll]
    intro b' hb' w' hw'
    obtain ⟨b, hb, rfl⟩ := List.mem_map.mp hb'
    rw [edges_map] at hw'
    obtain ⟨w, hw, rfl⟩ := List.mem_map.mp hw'
    obtain ⟨source, target, joins⟩ := here.joins b hb w hw
    have inside {k : κ} (hk : k ∈ b.inner.map name) : f k ∈ (b.map f p e).inner.map name := by
      obtain ⟨c, hc, rfl⟩ := List.mem_map.mp hk
      rw [inner_map, List.map_map]
      exact List.mem_map.mpr ⟨c, hc, name_map c⟩
    rw [words]
    refine ⟨f source, f target, ?_, kept joins.leaves, kept joins.enters, inside joins.goal, ?_, ?_⟩
    · exact fun same => joins.apart (portsTold (List.mem_map.mpr ⟨_, joins.leaves, rfl⟩)
        (List.mem_map.mpr ⟨_, joins.enters, rfl⟩) same)
    · rcases joins.start with same | ⟨within, other⟩
      · exact .inl (by rw [same, name_map])
      · exact .inr ⟨inside within, fun same => other (blocksTold
          (name_mem_of_declared joins.leaves) (name_mem_of_declared joins.enters) same)⟩
    · simp only [Joint.map, Option.mem_def, Option.map_eq_some_iff]
      rintro _ ⟨named, found, rfl⟩
      rw [joins.owners named found]
      rfl

end

end Sheet

/-- What a line of a drawing does: it opens a block, declares a port, states an edge, or closes the
block. -/
inductive Mark (κ π ω : Type) where
  | opened (name : κ)
  | port (p : π)
  | edge (e : ω)
  | closed
  deriving DecidableEq

namespace Mark

variable {κ κ' π π' ω ω' : Type}

def map (f : κ → κ') (p : π → π') (e : ω → ω') : Mark κ π ω → Mark κ' π' ω'
  | opened k => opened (f k)
  | port q => port (p q)
  | edge w => edge (e w)
  | closed => closed

def edge? : Mark κ π ω → Option ω
  | edge w => some w
  | _ => none

def declared? : Mark κ π ω → Option (κ ⊕ π)
  | opened k => some (.inl k)
  | port q => some (.inr q)
  | _ => none

def isFrame : Mark κ π ω → Bool
  | edge _ => false
  | _ => true

theorem filterMap_edge?_frames (ms : List (Mark κ π ω)) :
    (ms.filter isFrame).filterMap edge? = [] := by
  rw [List.filterMap_eq_nil_iff]
  intro m hm
  cases m <;> simp [isFrame, edge?] at hm ⊢

theorem filterMap_declared?_frames (ms : List (Mark κ π ω)) :
    (ms.filter isFrame).filterMap declared? = ms.filterMap declared? := by
  rw [List.filterMap_filter]
  apply List.filterMap_congr
  intro m _
  cases m <;> rfl

theorem filterMap_edge?_edges (ws : List ω) :
    (ws.map edge : List (Mark κ π ω)).filterMap edge? = ws := by
  simp [List.filterMap_map, Function.comp_def, edge?]

theorem filterMap_declared?_edges (ws : List ω) :
    (ws.map edge : List (Mark κ π ω)).filterMap declared? = [] := by
  simp [List.filterMap_map, Function.comp_def, declared?]

end Mark

namespace Sheet

variable {κ κ' π π' ω ω' : Type} {f : κ → κ'} {p : π → π'} {e : ω → ω'}

mutual

/-- A block as a flow of marks: its ports, the blocks inside it, and its edges. -/
def marks : Sheet κ π ω → List (Mark κ π ω)
  | block k ps es inner =>
    .opened k :: (ps.map .port ++ (marksAll inner ++ (es.map .edge ++ [.closed])))

def marksAll : List (Sheet κ π ω) → List (Mark κ π ω)
  | [] => []
  | s :: ss => marks s ++ marksAll ss

end

theorem marksAll_append (ss ts : List (Sheet κ π ω)) :
    marksAll (ss ++ ts) = marksAll ss ++ marksAll ts := by
  induction ss with
  | nil => rfl
  | cons s ss ih => simp only [List.cons_append, marksAll, ih, List.append_assoc]

mutual

theorem marks_map : ∀ s : Sheet κ π ω, marks (s.map f p e) = s.marks.map (Mark.map f p e)
  | block k ps es inner => by
    simp [map, marks, marksAll_mapAll inner, Mark.map, Function.comp_def]

theorem marksAll_mapAll : ∀ ss : List (Sheet κ π ω),
    marksAll (mapAll f p e ss) = (marksAll ss).map (Mark.map f p e)
  | [] => rfl
  | s :: ss => by rw [mapAll, marksAll, marks_map s, marksAll_mapAll ss, marksAll, List.map_append]

end

/-- The edges of a drawing, those of a block after those of the blocks inside it. -/
def stated (ss : List (Sheet κ π ω)) : List ω := (marksAll ss).filterMap Mark.edge?

theorem stated_append (ss ts : List (Sheet κ π ω)) :
    stated (ss ++ ts) = stated ss ++ stated ts := by
  rw [stated, marksAll_append, List.filterMap_append, stated, stated]

theorem stated_block (k : κ) (ps : List π) (es : List ω) (inner : List (Sheet κ π ω)) :
    stated [block k ps es inner] = stated inner ++ es := by
  simp [stated, marksAll, marks, List.filterMap_cons, Mark.edge?, List.filterMap_map,
    Function.comp_def]

mutual

theorem exists_of_stated : ∀ (s : Sheet κ π ω) {e : ω}, e ∈ stated [s] →
    ∃ b ∈ s.blocks, e ∈ b.edges
  | block k ps es inner, e, he => by
    rw [stated_block, List.mem_append] at he
    rcases he with within | own
    · obtain ⟨b, hb, listed⟩ := exists_of_statedAll inner within
      exact ⟨b, List.mem_cons_of_mem _ hb, listed⟩
    · exact ⟨_, List.mem_cons_self, own⟩

/-- An edge of a drawing stands in one of its blocks. -/
theorem exists_of_statedAll : ∀ (ss : List (Sheet κ π ω)) {e : ω}, e ∈ stated ss →
    ∃ b ∈ blocksAll ss, e ∈ b.edges
  | [], e, he => by cases he
  | s :: ss, e, he => by
    rw [← List.singleton_append, stated_append, List.mem_append] at he
    rw [blocksAll]
    rcases he with first | rest
    · obtain ⟨b, hb, listed⟩ := exists_of_stated s first
      exact ⟨b, List.mem_append_left _ hb, listed⟩
    · obtain ⟨b, hb, listed⟩ := exists_of_statedAll ss rest
      exact ⟨b, List.mem_append_right _ hb, listed⟩

end

theorem stated_mapAll (ss : List (Sheet κ π ω)) : stated (mapAll f p e ss) = (stated ss).map e := by
  rw [stated, marksAll_mapAll, List.filterMap_map, stated, List.map_filterMap]
  apply List.filterMap_congr
  intro m _
  cases m <;> rfl

mutual

theorem declared_marks : ∀ s : Sheet κ π ω, s.marks.filterMap Mark.declared? =
    s.blocks.flatMap fun b => .inl b.name :: b.ports.map .inr
  | block k ps es inner => by
    simp [marks, blocks, name, ports, Mark.declared?, List.filterMap_map, Function.comp_def,
      declared_marksAll inner]

/-- What the marks of a drawing declare is each block with its ports. -/
theorem declared_marksAll : ∀ ss : List (Sheet κ π ω), (marksAll ss).filterMap Mark.declared? =
    (blocksAll ss).flatMap fun b => .inl b.name :: b.ports.map .inr
  | [] => rfl
  | s :: ss => by
    rw [marksAll, List.filterMap_append, declared_marks s, declared_marksAll ss, blocksAll,
      List.flatMap_append]

end

/-- How far a flow of marks has been read: the blocks that are complete, and those that are open,
the innermost first, each with what has been met of it. -/
structure Reading (κ π ω : Type) where
  complete : List (Sheet κ π ω) := []
  opened : List (Sheet κ π ω) := []

namespace Reading

/-- A complete block is put inside the innermost open one. -/
def add (b : Sheet κ π ω) : Reading κ π ω → Reading κ π ω
  | ⟨done, []⟩ => ⟨done ++ [b], []⟩
  | ⟨done, block k ps es inner :: rest⟩ => ⟨done, block k ps es (inner ++ [b]) :: rest⟩

def addAll (r : Reading κ π ω) (bs : List (Sheet κ π ω)) : Reading κ π ω :=
  bs.foldl (fun r b => r.add b) r

/-- Outside of all blocks only a block can be opened. -/
def step : Reading κ π ω → Mark κ π ω → Option (Reading κ π ω)
  | ⟨done, open'⟩, .opened k => some ⟨done, block k [] [] [] :: open'⟩
  | ⟨done, block k ps es inner :: rest⟩, .port p =>
    some ⟨done, block k (ps ++ [p]) es inner :: rest⟩
  | ⟨done, block k ps es inner :: rest⟩, .edge e =>
    some ⟨done, block k ps (es ++ [e]) inner :: rest⟩
  | ⟨done, b :: rest⟩, .closed => some (add b ⟨done, rest⟩)
  | ⟨_, []⟩, _ => none

def run (r : Reading κ π ω) (ms : List (Mark κ π ω)) : Option (Reading κ π ω) := ms.foldlM step r

end Reading

/-- The blocks that a flow of marks shows, if all that are opened are closed. -/
def read (ms : List (Mark κ π ω)) : Option (List (Sheet κ π ω)) :=
  match Reading.run {} ms with
  | some ⟨done, []⟩ => some done
  | _ => none

namespace Reading

variable {done rest : List (Sheet κ π ω)} {k : κ} {ps : List π} {es : List ω}
  {inner : List (Sheet κ π ω)}

theorem run_cons (r : Reading κ π ω) (m : Mark κ π ω) (ms : List (Mark κ π ω)) :
    r.run (m :: ms) = (r.step m).bind fun r' => r'.run ms := by
  simp [run]

theorem run_append (r : Reading κ π ω) (ms ms' : List (Mark κ π ω)) :
    r.run (ms ++ ms') = (r.run ms).bind fun r' => r'.run ms' := by
  simp [run]

theorem run_ports (qs : List π) :
    run ⟨done, block k ps es inner :: rest⟩ (qs.map Mark.port) =
      some ⟨done, block k (ps ++ qs) es inner :: rest⟩ := by
  induction qs generalizing ps with
  | nil => simp [run]
  | cons q qs ih => simp [run_cons, step, ih]

theorem run_edges (ws : List ω) :
    run ⟨done, block k ps es inner :: rest⟩ (ws.map Mark.edge) =
      some ⟨done, block k ps (es ++ ws) inner :: rest⟩ := by
  induction ws generalizing es with
  | nil => simp [run]
  | cons w ws ih => simp [run_cons, step, ih]

theorem addAll_inner (ss : List (Sheet κ π ω)) :
    addAll ⟨done, block k ps es inner :: rest⟩ ss =
      ⟨done, block k ps es (inner ++ ss) :: rest⟩ := by
  induction ss generalizing inner with
  | nil => simp [addAll]
  | cons s ss ih =>
    rw [addAll, List.foldl_cons, add, ← addAll, ih, List.append_assoc, List.singleton_append]

theorem addAll_outer (ss : List (Sheet κ π ω)) :
    addAll ⟨done, []⟩ ss = ⟨done ++ ss, []⟩ := by
  induction ss generalizing done with
  | nil => simp [addAll]
  | cons s ss ih =>
    rw [addAll, List.foldl_cons, add, ← addAll, ih, List.append_assoc, List.singleton_append]

mutual

/-- The marks of a block are read as the block, wherever they stand. -/
theorem run_marks : ∀ (s : Sheet κ π ω) (r : Reading κ π ω), r.run s.marks = some (r.add s)
  | block k ps es inner, ⟨done, rest⟩ => by
    rw [marks, run_cons]
    simp only [step, Option.bind_some, run_append, run_ports, run_marksAll inner, addAll_inner,
      run_edges, List.nil_append]
    simp [run, step]

theorem run_marksAll : ∀ (ss : List (Sheet κ π ω)) (r : Reading κ π ω),
    r.run (marksAll ss) = some (r.addAll ss)
  | [], r => by simp [marksAll, run, addAll]
  | s :: ss, r => by
    rw [marksAll, run_append, run_marks s r, Option.bind_some, run_marksAll ss]
    rfl

end

end Reading

/-- Blocks can be read back from their marks. -/
theorem read_marksAll (ss : List (Sheet κ π ω)) : read (marksAll ss) = some ss := by
  have all : Reading.run {} (marksAll ss) = some ⟨ss, []⟩ := by
    rw [Reading.run_marksAll, Reading.addAll_outer, List.nil_append]
  rw [read, all]

theorem marksAll_injective : Function.Injective (marksAll : List (Sheet κ π ω) → _) := by
  intro ss ts same
  apply Option.some.inj
  rw [← read_marksAll ss, same, read_marksAll ts]

end Sheet

end Schematic
