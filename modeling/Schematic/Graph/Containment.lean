import Schematic.ScatterTable

/-!
The containment relation as a directed graph on identifiers, kept apart from the components
themselves: links can be added and cut without touching a component. Searches answer with fewest
links. Where several ways have as few, the one counts that two searches find first which start at
both ends and look at neighbours in the order of a scatter table.

This stands for the graph library that the program keeps its containment in. What is proved of trees
and paths relies on it in this:

* Nodes and links are those that were added and not removed, in the order in which they came.
* An arborescence is joined and has one link fewer than nodes, with at most one link to each node.
* A search fails exactly if no way leads from one end to the other, and answers with a simple way
  otherwise. A tree has only one, so nothing rests on the order in which a search looks at
  neighbours.
-/

namespace Schematic

/-- A directed graph on numbers. Nodes and links stand in the order in which they were added; a
node may have no link, and the ends of a link are nodes. -/
structure Containment where
  nodes : List Nat := []
  links : List (Nat × Nat) := []
  deriving DecidableEq, Repr, Inhabited

namespace Containment

def addNode (g : Containment) (n : Nat) : Containment :=
  if g.nodes.contains n then g else { g with nodes := g.nodes ++ [n] }

def link (g : Containment) (a b : Nat) : Containment :=
  let g := (g.addNode a).addNode b
  if g.links.contains (a, b) then g else { g with links := g.links ++ [(a, b)] }

/-- The graph without a link, or `none` when it has no such link. -/
def unlink? (g : Containment) (a b : Nat) : Option Containment :=
  if g.links.contains (a, b) then some { g with links := g.links.erase (a, b) } else none

def successors (g : Containment) (n : Nat) : List Nat :=
  g.links.filterMap fun (a, b) => if a = n then some b else none

def predecessors (g : Containment) (n : Nat) : List Nat :=
  g.links.filterMap fun (a, b) => if b = n then some a else none

def linked (g : Containment) (n : Nat) : List Nat :=
  (g.successors n ++ g.predecessors n).eraseDups

/-- Members in a given order; those that it leaves out come last. -/
def arranged (order members : List Nat) : List Nat :=
  (order.filter fun n => members.contains n) ++ members.filter fun n => !order.contains n

def scattered (nodes : List Nat) : ScatterTable Nat :=
  .ofList (· == ·) (nodes.map fun n => (n, n))

/-- The nodes linked with a node in either direction, in the order of the table that joins those
after it with those before it. -/
def neighbours (g : Containment) (n : Nat) : List Nat :=
  arranged (ScatterTable.union (· == ·) (scattered (g.successors n))
    (scattered (g.predecessors n))).toList (g.linked n)

theorem mem_arranged {order members : List Nat} {n : Nat} :
    n ∈ arranged order members ↔ n ∈ members := by
  by_cases h : n ∈ order <;> simp [arranged, h]

theorem mem_nodes_addNode {g : Containment} {m n : Nat} :
    m ∈ (g.addNode n).nodes ↔ m ∈ g.nodes ∨ m = n := by
  unfold addNode
  split
  · next h =>
    have hn : n ∈ g.nodes := by simpa using h
    exact ⟨Or.inl, fun hm => hm.elim id fun heq => heq ▸ hn⟩
  · simp

@[simp] theorem links_addNode (g : Containment) (n : Nat) : (g.addNode n).links = g.links := by
  unfold addNode
  split <;> rfl

theorem mem_links_link {g : Containment} {a b : Nat} {e : Nat × Nat} :
    e ∈ (g.link a b).links ↔ e ∈ g.links ∨ e = (a, b) := by
  simp only [link, links_addNode]
  split
  · next h =>
    have hab : (a, b) ∈ g.links := by simpa using h
    rw [links_addNode, links_addNode]
    exact ⟨Or.inl, fun he => he.elim id fun heq => heq ▸ hab⟩
  · simp

theorem mem_successors {g : Containment} {m n : Nat} :
    m ∈ g.successors n ↔ (n, m) ∈ g.links := by
  simp [successors]

theorem mem_predecessors {g : Containment} {m n : Nat} :
    m ∈ g.predecessors n ↔ (m, n) ∈ g.links := by
  simp only [predecessors, List.mem_filterMap, Prod.exists, Option.ite_none_right_eq_some,
    Option.some.injEq]
  exact ⟨fun ⟨_, _, h, hb, ha⟩ => ha ▸ hb ▸ h, fun h => ⟨m, n, h, rfl, rfl⟩⟩

theorem mem_linked {g : Containment} {m n : Nat} :
    m ∈ g.linked n ↔ (n, m) ∈ g.links ∨ (m, n) ∈ g.links := by
  simp [linked, mem_successors, mem_predecessors]

theorem mem_neighbours {g : Containment} {m n : Nat} :
    m ∈ g.neighbours n ↔ (n, m) ∈ g.links ∨ (m, n) ∈ g.links :=
  mem_arranged.trans mem_linked

/-- The nodes reached from some nodes in any number of steps, as long as each round but the last
of `rounds` finds a new one. -/
def closure (step : Nat → List Nat) : Nat → List Nat → List Nat
  | 0, seen => seen
  | rounds + 1, seen =>
    let fresh := ((seen.flatMap step).filter fun n => !seen.contains n).eraseDups
    if fresh.isEmpty then seen else closure step rounds (seen ++ fresh)

/-- Whether links, taken in either direction, join all nodes. A graph without nodes is joined. -/
def isJoined (g : Containment) : Bool :=
  match g.nodes with
  | [] => true
  | n :: _ => (closure g.linked g.nodes.length [n]).length == g.nodes.length

/-- Whether the graph is a tree whose links lead away from one root: it is joined, has one link
fewer than nodes, and no node is the end of two links. -/
def isArborescence (g : Containment) : Bool :=
  g.isJoined && g.nodes.length == g.links.length + 1 &&
    g.nodes.all fun n => decide ((g.predecessors n).length ≤ 1)

/-- The number of links on a shortest way to `goal` over `step`, from a layer of nodes that is
`count` links away from the start. -/
def stepsTo (step : Nat → List Nat) (goal : Nat) :
    Nat → (layer seen : List Nat) → (count : Nat) → Option Nat
  | 0, _, _, _ => none
  | rounds + 1, layer, seen, count =>
    if layer.contains goal then some count
    else
      let next := ((layer.flatMap step).filter fun n => !seen.contains n).eraseDups
      if next.isEmpty then none else stepsTo step goal rounds next (seen ++ next) (count + 1)

/-- The number of links on a shortest way down from one node to another. It is looked for upwards,
where a tree leaves no choice. -/
def distance? (g : Containment) (top bottom : Nat) : Option Nat :=
  stepsTo g.predecessors top (g.nodes.length + 1) [bottom] [bottom] 0

def layersBelow (step : Nat → List Nat) : Nat → (layer seen : List Nat) → Nat
  | 0, _, _ => 0
  | rounds + 1, layer, seen =>
    let next := ((layer.flatMap step).filter fun n => !seen.contains n).eraseDups
    if next.isEmpty then 0 else layersBelow step rounds next (seen ++ next) + 1

/-- The greatest distance of a node that can be reached from `top`. -/
def reach (g : Containment) (top : Nat) : Nat :=
  layersBelow g.successors g.nodes.length [top] [top]

/-- A search from one end of a way: for each node that it has reached, a shortest way back to the
end, the node itself first; and the nodes that it reached last. -/
structure Wave where
  ways : List (Nat × List Nat)
  front : List Nat
  deriving DecidableEq, Repr

namespace Wave

def start (n : Nat) : Wave := ⟨[(n, [n])], [n]⟩

def reaches (w : Wave) (n : Nat) : Bool := (w.ways.lookup n).isSome

def wayFrom (w : Wave) (n : Nat) : List Nat := (w.ways.lookup n).getD []

/-- The search with the next nodes of a way, up to the first one that the other search has reached,
and that node. -/
def spread (other : Wave) (way : List Nat) : List Nat → Wave → Option Nat × Wave
  | [], w => (none, w)
  | n :: ns, w =>
    let w := if w.reaches n then w else ⟨w.ways ++ [(n, n :: way)], w.front ++ [n]⟩
    if other.reaches n then (some n, w) else spread other way ns w

def spreadAll (step : Nat → List Nat) (other : Wave) : List Nat → Wave → Option Nat × Wave
  | [], w => (none, w)
  | n :: ns, w =>
    match spread other (w.wayFrom n) (step n) w with
    | (some m, w) => (some m, w)
    | (none, w) => spreadAll step other ns w

def advance (step : Nat → List Nat) (other w : Wave) : Option Nat × Wave :=
  spreadAll step other w.front { w with front := [] }

def joined (ahead back : Wave) (n : Nat) : List Nat :=
  (ahead.wayFrom n).reverse ++ (back.wayFrom n).drop 1

/-- The way between the ends of two searches. The one with fewer nodes at its front goes on. -/
def meet (step : Nat → List Nat) : Nat → (ahead back : Wave) → Option (List Nat)
  | 0, _, _ => none
  | rounds + 1, ahead, back =>
    if ahead.front.isEmpty || back.front.isEmpty then none
    else if ahead.front.length ≤ back.front.length then
      match advance step back ahead with
      | (some n, ahead) => some (joined ahead back n)
      | (none, ahead) => meet step rounds ahead back
    else
      match advance step ahead back with
      | (some n, back) => some (joined ahead back n)
      | (none, back) => meet step rounds ahead back

end Wave

/-- The nodes of a shortest way between two nodes over links in either direction. -/
def path? (g : Containment) (start goal : Nat) : Option (List Nat) :=
  if g.nodes.contains start ∧ g.nodes.contains goal then
    if start = goal then some [start]
    else Wave.meet g.neighbours (2 * g.nodes.length + 2) (.start start) (.start goal)
  else none

end Containment

end Schematic
