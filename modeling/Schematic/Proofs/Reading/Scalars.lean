import Mathlib.Algebra.Order.Group.Nat
import Mathlib.Data.Finset.Card
import Mathlib.Logic.Function.Iterate
import Schematic.Proofs.Reading.Merges
import Schematic.Proofs.Reading.Nodes
import Schematic.Yaml.Reader

/-! What the values of a YAML document can fail at besides its grammar: at a node whose text is no
value of the type that its tag claims. The node, its tag and the text are those of the document as
it was parsed; which node a mapping stands for is looked up when its merge keys may have been
resolved. -/

namespace Schematic.Yaml

variable {g h : NodeGraph} {id : NodeId} {t : Text}

namespace NodeGraph

/-- The node that a mapping stands for: what is under its special key. -/
def valueOf? (g : NodeGraph) (id : NodeId) : Option NodeId :=
  match (g.node id).content with
  | .mapping pairs => (pairs.find? fun pair => (g.node pair.1).tag == .value).map Prod.snd
  | _ => none

/-- The text that a node of a document is read by: its own, or that of the node that it stands for
in a later state of the document. -/
inductive Tells (g h : NodeGraph) : NodeId → Text → Prop
  | own {id : NodeId} {t : Text} (written : (g.node id).content = .scalar t) : Tells g h id t
  | value {id inner : NodeId} {t : Text} (stands : h.valueOf? id = some inner)
      (told : Tells g h inner t) : Tells g h id t

/-- What a node can be blamed for: a text that is no value of the type that its tag claims, a
mapping with the tag of a moment, or a mapping that stands for another one, and so on without
end. -/
inductive Blame (g h : NodeGraph) : ScalarFault → Prop
  | truth {id : NodeId} {t : Text} {fault : ScalarFault} (tagged : (g.node id).tag = .bool)
      (told : Tells g h id t) (none : Scalar.truthOf t = .error fault) : Blame g h fault
  | whole {id : NodeId} {t : Text} {fault : ScalarFault} (tagged : (g.node id).tag = .int)
      (told : Tells g h id t) (none : Scalar.intOf t = .error fault) : Blame g h fault
  | number {id : NodeId} {t : Text} {fault : ScalarFault} {common own : Value}
      (tagged : (g.node id).tag = .float) (told : Tells g h id t)
      (none : Scalar.floatOf common own t = .error fault) : Blame g h fault
  | day {id : NodeId} {t : Text} {fault : ScalarFault} (tagged : (g.node id).tag = .timestamp)
      (told : Tells g h id t) (none : Scalar.timestampOf t = .error fault) : Blame g h fault
  | moment {id : NodeId} (tagged : (g.node id).tag = .timestamp)
      (mapping : g.isMapping id = true) : Blame g h .momentExpected
  | endless {walk : Nat → NodeId} (mapping : g.isMapping (walk 0) = true)
      (stands : ∀ n, h.valueOf? (walk n) = some (walk (n + 1))) : Blame g h .endless

theorem isMapping_of_valueOf? {inner : NodeId} (stands : g.valueOf? id = some inner) :
    g.isMapping id = true := by
  rw [valueOf?] at stands
  rw [isMapping]
  cases held : (g.node id).content with
  | mapping pairs => rfl
  | scalar t =>
    rw [held] at stands
    cases stands
  | sequence items =>
    rw [held] at stands
    cases stands

theorem lt_of_isMapping (mapping : g.isMapping id = true) : id < g.nodes.size := by
  by_contra beyond
  have none : g.node id = default := by
    rw [node, Array.getD_eq_getD_getElem?, Array.getElem?_eq_none (Nat.le_of_not_lt beyond)]
    rfl
  rw [isMapping, none] at mapping
  cases mapping

def follow (g : NodeGraph) (at? : Option NodeId) : Option NodeId := at?.bind g.valueOf?

theorem isSome_follow_of_le {m n : Nat} (le : n ≤ m)
    (reached : (g.follow^[m] (some id)).isSome = true) :
    (g.follow^[n] (some id)).isSome = true := by
  induction m, le using Nat.le_induction with
  | base => exact reached
  | succ m _ ih =>
    rw [Function.iterate_succ_apply', follow] at reached
    exact ih (Option.isSome_of_isSome_bind reached)

/-- Who comes back to a node goes round for ever. -/
theorem isSome_follow_of_return {i j : Nat} (earlier : i < j)
    (same : g.follow^[i] (some id) = g.follow^[j] (some id))
    (reached : (g.follow^[j] (some id)).isSome = true) (n : Nat) :
    (g.follow^[n] (some id)).isSome = true := by
  induction n using Nat.strong_induction_on with
  | _ n ih =>
    by_cases le : n ≤ j
    · exact isSome_follow_of_le le reached
    · have back := ih (n - j + i) (by omega)
      have round : n = n - j + j := by omega
      rwa [round, Function.iterate_add_apply, ← same, ← Function.iterate_add_apply]

theorem exists_walk (far : (g.follow^[g.nodes.size + 1] (some id)).isSome = true) :
    ∃ walk : Nat → NodeId, walk 0 = id ∧ ∀ n, g.valueOf? (walk n) = some (walk (n + 1)) := by
  let walk (n : Nat) : NodeId := (g.follow^[n] (some id)).getD id
  have spot {n : Nat} (reached : (g.follow^[n] (some id)).isSome = true) :
      g.follow^[n] (some id) = some (walk n) := by
    obtain ⟨x, found⟩ := Option.isSome_iff_exists.mp reached
    simp only [walk, found, Option.getD_some]
  have step {n : Nat} (reached : (g.follow^[n + 1] (some id)).isSome = true) :
      g.valueOf? (walk n) = some (walk (n + 1)) := by
    rw [← spot reached, Function.iterate_succ_apply', spot (isSome_follow_of_le n.le_succ reached)]
    rfl
  -- all nodes on the way but the last stand for something, and there are more of these than nodes
  obtain ⟨i, hi, j, hj, apart, same⟩ : ∃ i ∈ Finset.range (g.nodes.size + 1),
      ∃ j ∈ Finset.range (g.nodes.size + 1), i ≠ j ∧ walk i = walk j := by
    refine Finset.exists_ne_map_eq_of_card_lt_of_maps_to (t := Finset.range g.nodes.size) ?_ ?_
    · simp only [Finset.card_range, Nat.lt_succ_self]
    · intro n hn
      have near : n + 1 ≤ g.nodes.size + 1 := Finset.mem_range.mp hn
      have stands := step (isSome_follow_of_le near far)
      exact Finset.mem_range.mpr (lt_of_isMapping (isMapping_of_valueOf? stands))
  have early {n : Nat} (hn : n ∈ Finset.range (g.nodes.size + 1)) :
      (g.follow^[n] (some id)).isSome = true :=
    isSome_follow_of_le (Nat.le_of_lt (Finset.mem_range.mp hn)) far
  have return' : g.follow^[i] (some id) = g.follow^[j] (some id) := by
    rw [spot (early hi), spot (early hj), same]
  refine ⟨walk, rfl, fun n => step ?_⟩
  rcases Nat.lt_or_gt_of_ne apart with less | greater
  · exact isSome_follow_of_return less return' (early hj) _
  · exact isSome_follow_of_return greater return'.symm (early hi) _

end NodeGraph

namespace Visit

open NodeGraph

variable {α : Type} {P : ScalarFault → Prop}

theorem scalarFault_blames {r : Except ScalarFault α}
    (blames : ∀ fault, r = .error fault → P fault) : Blames P (scalarFault r) := by
  cases r with
  | error e =>
    rintro fault ⟨⟩
    exact blames e rfl
  | ok a => exact .ok a

/-- Reading the text of a mapping is reading the text of the node that it stands for. -/
theorem textOf_mapping {pairs : List (NodeId × NodeId)} (fuel : Nat)
    (held : (h.node id).content = .mapping pairs) : textOf h (fuel + 1) id =
      match h.valueOf? id with
      | some inner => textOf h fuel inner
      | none => malformed := by
  rw [textOf, valueOf?, held]
  dsimp only
  cases pairs.find? fun pair => (h.node pair.1).tag == .value <;> rfl

theorem textOf_tells (from' : h.ComesFrom g) {fuel : Nat} (read : textOf h fuel id = .ok t) :
    Tells g h id t := by
  induction fuel generalizing id with
  | zero => cases read
  | succ fuel ih =>
    cases held : (h.node id).content with
    | scalar content =>
      rw [textOf, held] at read
      cases read
      exact .own (from'.scalar held)
    | sequence items =>
      rw [textOf, held] at read
      cases read
    | mapping pairs =>
      rw [textOf_mapping fuel held] at read
      cases stands : h.valueOf? id with
      | none =>
        rw [stands] at read
        cases read
      | some inner =>
        rw [stands] at read
        exact .value stands (ih read)

theorem isSome_follow_of_endless {fuel : Nat} {fault : ScalarFault}
    (failed : textOf h fuel id = .error (.scalar fault)) :
    fault = .endless ∧ (h.follow^[fuel] (some id)).isSome = true := by
  induction fuel generalizing id with
  | zero =>
    cases failed
    exact ⟨rfl, rfl⟩
  | succ fuel ih =>
    cases held : (h.node id).content with
    | scalar content =>
      rw [textOf, held] at failed
      cases failed
    | sequence items =>
      rw [textOf, held] at failed
      cases failed
    | mapping pairs =>
      rw [textOf_mapping fuel held] at failed
      cases stands : h.valueOf? id with
      | none =>
        rw [stands] at failed
        cases failed
      | some inner =>
        rw [stands] at failed
        rw [Function.iterate_succ_apply, follow, Option.bind_some, stands]
        exact ih failed

theorem textOf_blames (from' : h.ComesFrom g) (id : NodeId) :
    Blames (Blame g h) (textOf h (h.nodes.size + 1) id) := by
  intro fault failed
  obtain ⟨rfl, far⟩ := isSome_follow_of_endless failed
  obtain ⟨walk, start, stands⟩ := exists_walk far
  exact .endless ((from'.mapping _).symm.trans (isMapping_of_valueOf? (stands 0))) stands

theorem bytesOf_blames (t : Text) : Blames P (bytesOf t) := by
  unfold bytesOf
  split
  · exact .ok _
  · exact .malformed

theorem single_blames (from' : h.ComesFrom g) (id : NodeId) :
    Blames (Blame g h) (single h id) := by
  refine .bind (textOf_blames from' id) fun t read => ?_
  have told := textOf_tells from' read
  split
  · exact .ok _
  · next tagged =>
    have own := from'.tagged tagged nofun
    exact .bind (scalarFault_blames fun _ => .truth own told) fun _ _ => .ok _
  · next tagged =>
    have own := from'.tagged tagged nofun
    exact .bind (scalarFault_blames fun _ => .whole own told) fun _ _ => .ok _
  · next tagged => exact scalarFault_blames fun _ => .number (from'.tagged tagged nofun) told
  · exact bytesOf_blames t
  · next tagged =>
    have own := from'.tagged tagged nofun
    unfold timestampOf
    split
    · next mapping =>
      rintro fault ⟨⟩
      exact .moment own ((from'.mapping id).symm.trans mapping)
    · exact scalarFault_blames fun _ => .day own told
  · exact .ok _

/-- What some node can be blamed for when merge keys have been resolved. -/
def IsAtFault (g : NodeGraph) (fault : ScalarFault) : Prop := ∃ h, g.Resolved h ∧ g.Blame h fault

def IsFrom (g : NodeGraph) (s : Visit) : Prop := g.Resolved s.graph

theorem opening?_blames {P : ScalarFault → Prop} (tag : Tag) : Blames P (opening? tag) := by
  unfold opening?
  split
  all_goals first
    | exact .ok _
    | exact .malformed

theorem remember_faithful (id : NodeId) (found : Shallow) :
    Faithful (IsFrom g) (IsAtFault g) (remember id found) :=
  .update fun _ from' => from'

theorem meet_faithful (id : NodeId) : Faithful (IsFrom g) (IsAtFault g) (meet id) := by
  refine .bind_get fun s from' => ?_
  split
  · exact .pure _
  · refine .bind_lift (opening?_blames _) fun opening _ => ?_
    split
    · exact .bind (remember_faithful _ _) fun _ => .bind (.update fun _ from' => from') fun _ =>
        .pure _
    · refine .bind_lift (fun fault failed => ?_) fun v _ =>
        .bind (remember_faithful _ _) fun _ => .pure _
      exact ⟨s.graph, from', single_blames from'.comesFrom id fault failed⟩

theorem meetAll_faithful (ids : List NodeId) : Faithful (IsFrom g) (IsAtFault g) (meetAll ids) := by
  induction ids with
  | nil => exact .pure ()
  | cons id ids ih => exact .bind (meet_faithful id) fun _ => ih

theorem meetKey_faithful (id : NodeId) : Faithful (IsFrom g) (IsAtFault g) (meetKey id) := by
  refine .bind (meet_faithful id) fun found => ?_
  split
  · exact .ite (.pure _) .malformed
  · exact .malformed

theorem meetPairs_faithful (pairs : List (NodeId × NodeId)) (entries : List (Value × NodeId)) :
    Faithful (IsFrom g) (IsAtFault g) (meetPairs pairs entries) := by
  induction pairs generalizing entries with
  | nil => exact .pure _
  | cons pair pairs ih =>
    exact .bind (meetKey_faithful _) fun _ => .bind (meet_faithful _) fun _ => ih _

theorem entriesOf_faithful (id : NodeId) : Faithful (IsFrom g) (IsAtFault g) (entriesOf id) := by
  refine .bind_get fun s from' => ?_
  split
  · next held =>
    have resolves := resolveMerges_resolves (s.graph.mergeCount + 1) []
    refine .bind_lift (resolves.blames _ _) fun graph resolved => ?_
    exact .bind (.put (from'.mapping held resolved)) fun _ => meetPairs_faithful _ _
  · exact .malformed

theorem pairsOf_faithful (ids : List NodeId) : Faithful (IsFrom g) (IsAtFault g) (pairsOf ids) := by
  induction ids with
  | nil => exact .pure _
  | cons id ids ih =>
    refine .bind_get fun s _ => ?_
    split
    · exact .bind (meet_faithful _) fun _ => .bind (meet_faithful _) fun _ =>
        .bind ih fun _ => .pure _
    · exact .malformed

theorem complete_faithful (id : NodeId) : Faithful (IsFrom g) (IsAtFault g) (complete id) := by
  refine .bind_get fun s _ => ?_
  dsimp only
  split
  · exact .bind (meetAll_faithful _) fun _ => remember_faithful _ _
  · exact .bind (entriesOf_faithful _) fun _ => remember_faithful _ _
  · exact .bind (entriesOf_faithful _) fun _ => remember_faithful _ _
  · exact .bind (pairsOf_faithful _) fun _ => remember_faithful _ _
  · exact .bind (pairsOf_faithful _) fun _ => remember_faithful _ _
  · exact .malformed

theorem completeEach_faithful (ids : List NodeId) :
    Faithful (IsFrom g) (IsAtFault g) (completeEach ids) := by
  induction ids with
  | nil => exact .pure ()
  | cons id ids ih => exact .bind (complete_faithful id) fun _ => ih

theorem completeAll_faithful (rounds : Nat) :
    Faithful (IsFrom g) (IsAtFault g) (completeAll rounds) := by
  induction rounds with
  | zero => exact .pure ()
  | succ rounds ih =>
    refine .bind_get fun s from' => .ite ?_ (.pure ())
    exact .bind (.put from') fun _ => .bind (completeEach_faithful _) fun _ => ih

end Visit

theorem shallow_blames (g : NodeGraph) (root : NodeId) :
    Blames (Visit.IsAtFault g) (g.shallow root) := by
  have visits : Faithful (Visit.IsFrom g) (Visit.IsAtFault g) (do
      let _ ← Visit.meet root
      Visit.completeAll (g.nodes.size + 1)) :=
    .bind (Visit.meet_faithful root) fun _ => Visit.completeAll_faithful _
  have start : Visit.IsFrom g { graph := g, known := Array.replicate g.nodes.size none } := .parsed
  exact .bind (visits _ start).1 fun _ _ => .ok _

/-- What a document can be blamed for besides its grammar: one of its tokens, or one of its nodes as
they are when the merge keys of some mappings have been resolved. -/
inductive DocumentBlame (text : List Char) : ScalarFault → Prop
  | token {fault : ScalarFault} (blame : TokenBlame text fault) : DocumentBlame text fault
  | node {fault : ScalarFault} {root : Option NodeId} {g h : NodeGraph}
      (parsed : Node.ofText text = .ok (root, g)) (resolved : g.Resolved h)
      (blame : g.Blame h fault) : DocumentBlame text fault

theorem read_blames (text : List Char) : Blames (DocumentBlame text) (read text) := by
  refine .bind (fun fault failed => .token (Node.ofText_blames text fault failed)) ?_
  rintro ⟨_ | root, g⟩ parsed
  · exact .ok _
  · refine .bind (fun fault failed => ?_) fun _ _ => .ok _
    obtain ⟨h, resolved, blame⟩ := shallow_blames g root fault failed
    exact .node parsed resolved blame

end Schematic.Yaml
