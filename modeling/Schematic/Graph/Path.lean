import Schematic.Graph.Outline

/-!
The way from one component to another: up to the component that contains both, then down. It is
found twice. `pathBetween` asks the containment relation for a shortest way. `trail` searches depth
first along children lists and remembers at each component whether the search was still going up.

The search calls itself for each component on a trail, and no trail is too long for it: graphs are
taken to stay below the recursion limit of the interpreter.
-/

namespace Schematic

/-- A component on a trail, and whether it was reached by a step up; the start counts as such. -/
structure Crumb where
  component : ComponentKey
  upwards : Bool
  deriving DecidableEq, Repr

namespace Graph

/-- How many links the containment relation has from the root down to a component. -/
def depth (g : Graph) (k : ComponentKey) : Except Error Nat := do
  let root ← g.root
  let top := (g.component root).id
  let bottom := (g.component k).id
  let c := g.register.containment
  if c.nodes.contains top ∧ c.nodes.contains bottom then
    match c.distance? top bottom with
    | some n => .ok n
    | none => .error .unreachable
  else .error .searchOutside

/-- The components on a shortest way between two components, over containment in either direction;
none when no way exists. -/
def pathBetween (g : Graph) (start goal : ComponentKey) : Except Error (List ComponentKey) :=
  match g.register.containment.path? (g.component start).id (g.component goal).id with
  | some ids => ids.mapM fun (id : Nat) => g.resolve (.int id)
  | none => .ok []

abbrev Found := Option (List Crumb) × List Nat

/-- Tries a search from each of some components until one finds a trail. What was visited stays
visited. -/
def firstTrail (search : ComponentKey → List Nat → Except Error Found) :
    List ComponentKey → List Nat → Except Error Found
  | [], visited => .ok (none, visited)
  | k :: ks, visited =>
    match search k visited with
    | .error e => .error e
    | .ok (some trail, visited) => .ok (some trail, visited)
    | .ok (none, visited) => firstTrail search ks visited

/-- Searches for a component below the current one and, as long as there was no step down, above
it. No component is entered twice, so the search is never deeper than there are components. -/
def searchFrom (g : Graph) (goal : ComponentKey) :
    Nat → (current : ComponentKey) → (upwards : Bool) → (visited : List Nat) → Except Error Found
  | 0, _, _, visited => .ok (none, visited)
  | depth + 1, current, upwards, visited =>
    let here : Crumb := ⟨current, upwards⟩
    let id := (g.component current).id
    if current = goal then .ok (some [here], visited)
    else if visited.contains id then .ok (none, visited)
    else
      match firstTrail (fun k => searchFrom g goal depth k false) (g.childrenOf current)
          (id :: visited) with
      | .error e => .error e
      | .ok (some trail, visited) => .ok (some (here :: trail), visited)
      | .ok (none, visited) =>
        if upwards then
          match g.parent current with
          | .error e => .error e
          | .ok none => .ok (none, visited)
          | .ok (some above) =>
            match searchFrom g goal depth above true visited with
            | .error e => .error e
            | .ok (some trail, visited) => .ok (some (here :: trail), visited)
            | .ok (none, visited) => .ok (none, visited)
        else .ok (none, visited)

/-- The trail from one component to another, or `none` when the second is not reached. -/
def trail (g : Graph) (start goal : ComponentKey) : Except Error (Option (List Crumb)) :=
  (g.searchFrom goal (g.arena.components.size + 2) start true []).map Prod.fst

end Graph

end Schematic
