import Schematic.Proofs.Drawing.Parts
import Schematic.Proofs.Graph.Wires

/-! The numbers of a JSON document. Components and ports have the identifiers that the graph gave
them, and the wires go on from the last of these, in the order in which a walk leaves the components
that show them. -/

namespace Schematic

namespace Outline

mutual

/-- The components of a tree, each after what is below it, siblings in their order. -/
def postorder : Outline → List ComponentKey
  | node k os => postorderAll os ++ [k]

def postorderAll : List Outline → List ComponentKey
  | [] => []
  | o :: os => postorder o ++ postorderAll os

end

end Outline

namespace Numbering

variable {n : Numbering}

theorem wires_append (ws us : List Wire) : n.wires (ws ++ us) =
    ((n.wires ws).1 ++ ((n.wires ws).2.wires us).1, ((n.wires ws).2.wires us).2) := by
  induction ws generalizing n with
  | nil => rfl
  | cons w ws ih => simp [wires, ih]

theorem wire_mem {ws : List Wire} {w : NumberedWire} (h : w ∈ (n.wires ws).1) : w.wire ∈ ws := by
  rw [← map_wire_wires n ws]
  exact List.mem_map_of_mem h

theorem map_wires {α : Type} (f : Wire → α) (ws : List Wire) :
    (n.wires ws).1.map (fun w => f w.wire) = ws.map f := by
  have mapped := congrArg (List.map f) (map_wire_wires n ws)
  rwa [List.map_map] at mapped

/-- Numbering starts behind the given number and leaves none out. -/
theorem wires_eq (last : Nat) (ws : List Wire) : (Numbering.wires ⟨last⟩ ws).1 =
    (ws.zipIdx (last + 1)).map fun (w, i) => ⟨toString i, w⟩ := by
  induction ws generalizing last with
  | nil => rfl
  | cons w ws ih =>
    have next : (last : Int) + 1 = (last + 1 : Nat) := rfl
    simp only [wires, Numbering.next, next, ih (last + 1), List.zipIdx_cons, List.map_cons]
    rfl

end Numbering

namespace Graph

def allWires (g : Graph) : List Wire :=
  match g.outline with
  | some o => o.postorder.flatMap g.wires
  | none => []

variable {g : Graph} {k : ComponentKey}

theorem ofOutline_node (g : Graph) (n : Numbering) (k : ComponentKey) (os : List Outline) :
    Block.ofOutline g n (.node k os) =
      (.mk k (g.portsOf k) (Block.ofOutlines g n os).1
        ((Block.ofOutlines g n os).2.wires (g.wires k)).1
        ((Block.ofOutlines g n os).2.wires (g.wires k)).2.last,
        ((Block.ofOutlines g n os).2.wires (g.wires k)).2) := rfl

theorem ofOutlines_cons (g : Graph) (n : Numbering) (o : Outline) (os : List Outline) :
    Block.ofOutlines g n (o :: os) =
      ((Block.ofOutline g n o).1 :: (Block.ofOutlines g (Block.ofOutline g n o).2 os).1,
        (Block.ofOutlines g (Block.ofOutline g n o).2 os).2) := rfl

mutual

theorem last_ofOutline (g : Graph) : ∀ (o : Outline) (n : Numbering),
    (Block.ofOutline g n o).2 = (n.wires (o.postorder.flatMap g.wires)).2
  | .node k os, n => by
    rw [ofOutline_node, Outline.postorder, List.flatMap_append, List.flatMap_singleton,
      Numbering.wires_append, last_ofOutlines g os n]

theorem last_ofOutlines (g : Graph) : ∀ (os : List Outline) (n : Numbering),
    (Block.ofOutlines g n os).2 = (n.wires ((Outline.postorderAll os).flatMap g.wires)).2
  | [], n => rfl
  | o :: os, n => by
    rw [ofOutlines_cons, Outline.postorderAll, List.flatMap_append, Numbering.wires_append,
      last_ofOutlines g os, last_ofOutline g o n]

end

mutual

theorem allPorts_ofOutline (g : Graph) : ∀ (o : Outline) (n : Numbering),
    (Block.ofOutline g n o).1.allPorts = o.preorder.flatMap g.portsOf
  | .node k os, n => by
    rw [ofOutline_node, Block.allPorts, Outline.preorder, List.flatMap_cons,
      allPortsOf_ofOutlines g os n]

theorem allPortsOf_ofOutlines (g : Graph) : ∀ (os : List Outline) (n : Numbering),
    Block.allPortsOf (Block.ofOutlines g n os).1 = (Outline.preorderAll os).flatMap g.portsOf
  | [], _ => rfl
  | o :: os, n => by
    rw [ofOutlines_cons, Block.allPortsOf, Outline.preorderAll, List.flatMap_append,
      allPorts_ofOutline g o n, allPortsOf_ofOutlines g os]

end

/-- The ports of a diagram are those of the graph. -/
theorem allPorts_of_block? {b : Block} (drawn : g.block? = some b) : b.allPorts = g.ports := by
  obtain ⟨o, outlined, rfl⟩ := Option.map_eq_some_iff.mp drawn
  rw [ports, components, outlined, allPorts_ofOutline]

/-- A wire as documents name it, by its number and those of its ports. -/
def wireNumbers (g : Graph) (w : NumberedWire) : Json × Json × Json :=
  (.text w.number, g.portNumber w.wire.sourcePort, g.portNumber w.wire.targetPort)

/-- What is drawn of some components and some wires: a block for each component, something else for
each of its ports, and the wires in their order. -/
structure Shows (g : Graph) (ds : List Drawn) (ks : List ComponentKey) (ws : List NumberedWire) :
    Prop where
  blocks : ds.filterMap Drawn.block? =
    ks.map fun k => (componentRef g k, (g.portsOf k).map g.portNumber)
  others : ds.filterMap Drawn.other? = (ks.flatMap g.portsOf).map g.portNumber
  wires : ds.filterMap Drawn.wire? = ws.map g.wireNumbers

namespace Shows

variable {ds ds' : List Drawn} {ks ks' : List ComponentKey} {ws ws' : List NumberedWire}

theorem nil (g : Graph) : g.Shows [] [] [] := ⟨rfl, rfl, rfl⟩

theorem append (first : g.Shows ds ks ws) (rest : g.Shows ds' ks' ws') :
    g.Shows (ds ++ ds') (ks ++ ks') (ws ++ ws') where
  blocks := by rw [List.filterMap_append, first.blocks, rest.blocks, List.map_append]
  others := by
    rw [List.filterMap_append, first.others, rest.others, List.flatMap_append, List.map_append]
  wires := by rw [List.filterMap_append, first.wires, rest.wires, List.map_append]

/-- A block with its ports, what is inside it, and its own wires. -/
theorem block (k : ComponentKey) (inner : g.Shows ds ks ws) (own : List NumberedWire) :
    g.Shows (.block (componentRef g k) ((g.portsOf k).map g.portNumber) ::
      ((g.portsOf k).map (fun q => .other (g.portNumber q)) ++
        (ds ++ own.map fun w => .wire (.text w.number) (g.portNumber w.wire.sourcePort)
          (g.portNumber w.wire.targetPort)))) (k :: ks) (ws ++ own) where
  blocks := by
    simp [Drawn.block?, inner.blocks, List.filterMap_map, Function.comp_def]
  others := by
    simp [List.filterMap_cons, Drawn.other?, inner.others, List.filterMap_map, Function.comp_def]
  wires := by
    simp [List.filterMap_cons, Drawn.wire?, inner.wires, List.filterMap_map, Function.comp_def,
      wireNumbers]

end Shows

end Graph

theorem forall₂_of_mapM {α β : Type} {f : α → Except Error β} {xs : List α} {ys : List β}
    (done : xs.mapM f = .ok ys) : List.Forall₂ (fun x y => f x = .ok y) xs ys := by
  induction xs generalizing ys with
  | nil =>
    cases done
    exact .nil
  | cons x xs ih =>
    rw [List.mapM_cons] at done
    obtain ⟨y, found, done⟩ := exists_of_bind_ok done
    obtain ⟨rest, found', done⟩ := exists_of_bind_ok done
    cases done
    exact .cons found (ih found')

theorem mapM_map_ok {α β γ : Type} {f : α → Except Error β} {f' : α → Except Error γ} {h : β → γ}
    {xs : List α} {ys : List β} (each : ∀ x ∈ xs, ∀ y, f x = .ok y → f' x = .ok (h y))
    (done : xs.mapM f = .ok ys) : xs.mapM f' = .ok (ys.map h) := by
  have found := forall₂_of_mapM done
  clear done
  induction found with
  | nil => rfl
  | cons first _ ih =>
    rw [List.forall_mem_cons] at each
    rw [List.mapM_cons, each.1 _ first, ih each.2]
    rfl

namespace JsonStyle

variable {style : JsonStyle} {g : Graph} {b : Block} {bs : List Block} {j : Json} {js : List Json}

/-- A block is drawn from its ports, the blocks inside it and its wires. -/
theorem exists_of_draw {k : ComponentKey} {ports : List PortKey} {children : List Block}
    {wires : List NumberedWire} {last : Int}
    (drawn : style.draw g (.mk k ports children wires last) = .ok j) :
    ∃ ps js ws, ports.mapM (style.port g) = .ok ps ∧ style.drawAll g children = .ok js ∧
      wires.mapM (style.wire g) = .ok ws ∧ style.node g k ps js ws last = j := by
  rw [draw] at drawn
  obtain ⟨ps, owned, drawn⟩ := exists_of_bind_ok drawn
  obtain ⟨js, inner, drawn⟩ := exists_of_bind_ok drawn
  obtain ⟨ws, joined, drawn⟩ := exists_of_bind_ok drawn
  exact ⟨ps, js, ws, owned, inner, joined, Except.ok.inj drawn⟩

theorem exists_of_drawAll (drawn : style.drawAll g (b :: bs) = .ok js) :
    ∃ first rest, style.draw g b = .ok first ∧ style.drawAll g bs = .ok rest ∧
      first :: rest = js := by
  rw [drawAll] at drawn
  obtain ⟨first, here, drawn⟩ := exists_of_bind_ok drawn
  obtain ⟨rest, later, drawn⟩ := exists_of_bind_ok drawn
  exact ⟨first, rest, here, later, Except.ok.inj drawn⟩

end JsonStyle

namespace JsonStyle.Numbers

open Json

variable {style : JsonStyle} {g : Graph}

theorem drawn_ports (law : style.Numbers g) {qs : List PortKey} {js : List Json}
    (known : ∀ q ∈ qs, q ∈ g.ports) (done : qs.mapM (style.port g) = .ok js) :
    js.map idOf = qs.map g.portNumber ∧
      drawnAmong js = qs.map fun q => .other (g.portNumber q) := by
  have each := forall₂_of_mapM done
  clear done
  induction each with
  | nil => exact ⟨rfl, rfl⟩
  | cons found _ ih =>
    rw [List.forall_mem_cons] at known
    obtain ⟨id, drawn⟩ := law.port known.1 found
    obtain ⟨ids, rest⟩ := ih known.2
    simp [id, ids, drawnAmong, drawn, rest]

theorem drawn_wires (law : style.Numbers g) {ws : List NumberedWire} {js : List Json}
    (known : ∀ w ∈ ws, w.wire.sourcePort ∈ g.ports ∧ w.wire.targetPort ∈ g.ports)
    (done : ws.mapM (style.wire g) = .ok js) : drawnAmong js = ws.map fun w =>
      .wire (.text w.number) (g.portNumber w.wire.sourcePort) (g.portNumber w.wire.targetPort) := by
  have each := forall₂_of_mapM done
  clear done
  induction each with
  | nil => rfl
  | cons found _ ih =>
    rw [List.forall_mem_cons] at known
    simp [drawnAmong, law.wire known.1.1 known.1.2 found, ih known.2]

mutual

theorem shows_draw (law : style.Numbers g) (hg : g.Coherent) : ∀ (o : Outline) (n : Numbering)
    (j : Json), (∀ k ∈ o.preorder, k ∈ g.roster) →
      style.draw g (Block.ofOutline g n o).1 = .ok j →
        g.Shows j.drawn o.preorder (n.wires (o.postorder.flatMap g.wires)).1
  | .node k os, n, j, known, done => by
    rw [Outline.preorder, List.forall_mem_cons] at known
    rw [Graph.ofOutline_node] at done
    obtain ⟨ports, children, wires, portsDone, childrenDone, wiresDone, rfl⟩ := exists_of_draw done
    have inner := shows_drawAll law hg os n children known.2 childrenDone
    have listed : ∀ q ∈ g.portsOf k, q ∈ g.ports := fun q hq => hg.mem_ports.mpr ⟨k, known.1, hq⟩
    obtain ⟨ids, others⟩ := law.drawn_ports listed portsDone
    have ends : ∀ w ∈ ((Block.ofOutlines g n os).2.wires (g.wires k)).1,
        w.wire.sourcePort ∈ g.ports ∧ w.wire.targetPort ∈ g.ports := fun w hw =>
      (hg.lies known.1 (Numbering.wire_mem hw)).ends hg
    rw [law.node k known.1, ids, others, law.drawn_wires ends wiresDone, Outline.preorder,
      Outline.postorder, List.flatMap_append, List.flatMap_singleton, Numbering.wires_append,
      ← Graph.last_ofOutlines]
    exact inner.block k _

theorem shows_drawAll (law : style.Numbers g) (hg : g.Coherent) : ∀ (os : List Outline)
    (n : Numbering) (js : List Json), (∀ k ∈ Outline.preorderAll os, k ∈ g.roster) →
      style.drawAll g (Block.ofOutlines g n os).1 = .ok js →
        g.Shows (drawnAmong js) (Outline.preorderAll os)
          (n.wires ((Outline.postorderAll os).flatMap g.wires)).1
  | [], _, _, _, done => by
    cases done
    exact .nil g
  | o :: os, n, js, known, done => by
    rw [Outline.preorderAll, List.forall_mem_append] at known
    rw [Graph.ofOutlines_cons] at done
    obtain ⟨j, rest, first, later, rfl⟩ := exists_of_drawAll done
    have inner := shows_drawAll law hg os _ rest known.2 later
    rw [Graph.last_ofOutline] at inner
    rw [Outline.preorderAll, Outline.postorderAll, List.flatMap_append, Numbering.wires_append]
    exact (shows_draw law hg o n j known.1 first).append inner

end

end JsonStyle.Numbers

end Schematic
