import Schematic.Proofs.Drawing.Numbering

/-! When the JSON documents of a graph can be drawn and written. All that can fail is writing a
number that is too long: the identifier of a port, or in one style an identity. -/

namespace Schematic

namespace Action

variable {σ α β : Type}

theorem of_bind (r : Except Error α) (next : α → Except Error β) :
    (Action.of (r >>= next) : Action σ β) = Action.of r >>= fun a => Action.of (next a) := by
  funext s
  cases r <;> rfl

end Action

/-- What a computation needs that is a step without a state. -/
def Writes {α : Type} (r : Except Error α) (need : Prop) (post : α → Prop) : Prop :=
  (Action.of r : Action Unit α).Needs () need fun a _ => post a

namespace Writes

variable {α β : Type} {r : Except Error α} {next : α → Except Error β} {a : α} {need need' : Prop}
  {post post' : α → Prop} {goal : β → Prop}

theorem pure (h : post a) : Writes (Pure.pure a) True post := Action.needs_pure h

theorem congr (h : Writes r need post) (same : need ↔ need') : Writes r need' post :=
  Action.Needs.congr h same

theorem weaken (h : Writes r need post) (more : ∀ a, post a → post' a) : Writes r need post' :=
  Action.Needs.weaken h fun a _ => more a

theorem bind (first : Writes r need post) (later : ∀ a, post a → Writes (next a) need' goal) :
    Writes (r >>= next) (need ∧ need') goal := by
  rw [Writes, Action.of_bind]
  exact Action.Needs.bind first fun a _ => later a

theorem map {f : α → β} (h : Writes r need post) (more : ∀ a, post a → goal (f a)) :
    Writes (f <$> r) need goal := by
  rw [map_eq_pure_bind]
  exact (h.bind fun a done => pure (more a done)).congr (and_iff_left trivial)

theorem written (v : Value) : Writes v.written (v.isWritable = true) fun t => t = v.plain where
  answers := fun writable => ⟨v.plain, if_pos writable, rfl⟩
  fails := fun long => if_neg long

theorem run {σ : Type} (h : Writes r need post) (s : σ) :
    (Action.of r).Needs s need fun a s' => post a ∧ s' = s where
  answers := fun holds => by
    obtain ⟨a, found, done⟩ := h.answers holds
    exact ⟨a, found, done, rfl⟩
  fails := h.fails

theorem mapM {f : α → Except Error β} {xs : List α} {need : α → Prop} {post : α → β → Prop}
    (each : ∀ x ∈ xs, Writes (f x) (need x) (post x)) :
    Writes (xs.mapM f) (∀ x ∈ xs, need x) fun ys => List.Forall₂ post xs ys := by
  induction xs with
  | nil =>
    have nothing : Writes (Pure.pure []) True fun ys : List β => List.Forall₂ post [] ys :=
      pure .nil
    exact nothing.congr (iff_of_true trivial (List.forall_mem_nil _))
  | cons x xs ih =>
    rw [List.forall_mem_cons] at each
    rw [List.mapM_cons, List.forall_mem_cons]
    refine (each.1.bind fun y first => (ih each.2).bind fun ys rest => pure ?_).congr
      (and_congr_right fun _ => and_iff_left trivial)
    exact .cons first rest

/-- What is written one by one is a function of what it is about. -/
theorem mapM_map {f : α → Except Error β} {xs : List α} {need : α → Prop} {h : α → β}
    (each : ∀ x ∈ xs, Writes (f x) (need x) fun y => y = h x) :
    Writes (xs.mapM f) (∀ x ∈ xs, need x) fun ys => ys = xs.map h := by
  refine (mapM each).weaken fun ys same => ?_
  clear each
  induction same with
  | nil => rfl
  | cons first _ ih => rw [first, ih, List.map_cons]

/-- The same where nothing stands in the way. -/
theorem mapM_eq {f : α → Except Error β} {xs : List α} {h : α → β}
    (each : ∀ x ∈ xs, Writes (f x) True fun y => y = h x) :
    Writes (xs.mapM f) True fun ys => ys = xs.map h :=
  (mapM_map each).congr (iff_of_true (fun _ _ => trivial) trivial)

end Writes

namespace Outline

variable {g : Graph}

mutual

/-- Whether a tree shows components of a graph, each with its children below it. -/
def Unfolds (g : Graph) : Outline → Prop
  | node k os => k ∈ g.roster ∧ os.map key = g.childrenOf k ∧ UnfoldAll g os

def UnfoldAll (g : Graph) : List Outline → Prop
  | [] => True
  | o :: os => Unfolds g o ∧ UnfoldAll g os

end

theorem unfoldAll_iff (os : List Outline) : UnfoldAll g os ↔ ∀ o ∈ os, o.Unfolds g := by
  induction os with
  | nil => simp [UnfoldAll]
  | cons o os ih => rw [UnfoldAll, ih, List.forall_mem_cons]

theorem key_mem_preorder (o : Outline) : o.key ∈ o.preorder := by
  cases o
  exact List.mem_cons_self

def allPorts (g : Graph) (o : Outline) : List PortKey := o.preorder.flatMap g.portsOf

def allPortsOf (g : Graph) (os : List Outline) : List PortKey :=
  (preorderAll os).flatMap g.portsOf

theorem allPorts_node (g : Graph) (k : ComponentKey) (os : List Outline) :
    (node k os).allPorts g = g.portsOf k ++ allPortsOf g os := by
  rw [allPorts, preorder, List.flatMap_cons, allPortsOf]

theorem allPortsOf_cons (g : Graph) (o : Outline) (os : List Outline) :
    allPortsOf g (o :: os) = o.allPorts g ++ allPortsOf g os := by
  rw [allPortsOf, preorderAll, List.flatMap_append, allPorts, allPortsOf]

end Outline

namespace Graph

variable {g : Graph} {o : Outline}

theorem components_of_outline (outlined : g.outline = some o) : g.components = o.preorder := by
  rw [components, outlined]

theorem ports_of_outline (outlined : g.outline = some o) : o.allPorts g = g.ports := by
  rw [ports, components_of_outline outlined, Outline.allPorts]

end Graph

namespace Graph.Coherent

variable {g : Graph} {k r : ComponentKey} {o : Outline} {os : List Outline} {w : Wire}

theorem unfolds_outlineOf (hg : g.Coherent) (hk : k ∈ g.roster) : (g.outlineOf k).Unfolds g := by
  -- from the youngest components up, since a child is younger than its parent
  induction count : (g.younger k).length using Nat.strongRecOn generalizing k with
  | ind n ih =>
    rw [hg.outlineOf_eq hk, Outline.Unfolds, Outline.unfoldAll_iff, List.forall_mem_map]
    have key (c : ComponentKey) (hc : c ∈ g.childrenOf k) : (g.outlineOf c).key = c := by
      rw [hg.outlineOf_eq (hg.child_mem ⟨hk, hc⟩)]
      rfl
    refine ⟨hk, ?_, fun c hc => ?_⟩
    · rw [List.map_map]
      exact (List.map_congr_left key).trans (List.map_id _)
    · have step : g.IsParent k c := ⟨hk, hc⟩
      exact ih _ (count ▸ hg.younger_lt step) (hg.child_mem step) rfl

theorem unfolds (hg : g.Coherent) (outlined : g.outline = some o) : o.Unfolds g := by
  obtain ⟨r, root, rfl⟩ := Option.map_eq_some_iff.mp outlined
  exact hg.unfolds_outlineOf (hg.root_mem root)

/-- What a wire in a component joins is in the tree below it. -/
theorem ends_inside (hg : g.Coherent) (unfolds : (Outline.node k os).Unfolds g)
    (hw : w ∈ g.wires k) : w.sourcePort ∈ (Outline.node k os).allPorts g ∧
      w.targetPort ∈ (Outline.node k os).allPorts g := by
  obtain ⟨hk, children, -⟩ := unfolds
  have lies := hg.lies hk hw
  have below {c : ComponentKey} {q : PortKey} (step : g.IsParent k c) (hq : q ∈ g.portsOf c) :
      q ∈ Outline.allPortsOf g os := by
    have listed : c ∈ os.map Outline.key := children ▸ step.2
    obtain ⟨o, ho, rfl⟩ := List.mem_map.mp listed
    refine List.mem_flatMap.mpr ⟨o.key, ?_, hq⟩
    rw [Outline.preorderAll_eq]
    exact List.mem_flatMap.mpr ⟨o, ho, o.key_mem_preorder⟩
  rw [Outline.allPorts_node, List.mem_append, List.mem_append]
  refine ⟨?_, .inr (below lies.target lies.enters)⟩
  rcases lies.side with ⟨same, -⟩ | ⟨step, -⟩
  · exact .inl (same ▸ lies.leaves)
  · exact .inr (below step lies.leaves)

end Graph.Coherent

namespace Json

variable {need need' : Prop} {fault fault' : Option JsonFault} {js : List Json}

/-- Why a document cannot be written: it can, with what is needed, and otherwise a number in it is
too long. -/
def FaultUnless (need : Prop) (fault : Option JsonFault) : Prop :=
  (need → fault = none) ∧ (¬ need → fault = some .tooLong)

namespace FaultUnless

theorem none : FaultUnless True .none := ⟨fun _ => rfl, fun h => absurd trivial h⟩

theorem congr (h : FaultUnless need fault) (same : need ↔ need') : FaultUnless need' fault :=
  propext same ▸ h

theorem or (h : FaultUnless need fault) (h' : FaultUnless need' fault') :
    FaultUnless (need ∧ need') (fault.or fault') := by
  by_cases holds : need
  · rw [h.1 holds, Option.none_or]
    exact h'.congr (and_iff_right holds).symm
  · rw [h.2 holds, Option.some_or]
    exact ⟨fun both => absurd both.1 holds, fun _ => rfl⟩

theorem eq_none_iff (h : FaultUnless need fault) : fault = .none ↔ need := by
  refine ⟨fun silent => ?_, h.1⟩
  by_contra misses
  cases silent.symm.trans (h.2 misses)

theorem all {α : Type} {need : α → Prop} {xs : List α}
    (each : List.Forall₂ (fun x j => FaultUnless (need x) (firstFault? j)) xs js) :
    FaultUnless (∀ x ∈ xs, need x) (firstFaultIn? js) := by
  induction each with
  | nil => exact none.congr (by simp)
  | cons first _ ih =>
    rw [firstFaultIn?, List.forall_mem_cons]
    exact first.or ih

end FaultUnless

theorem firstFaultIn?_of_sound {α : Type} {xs : List α}
    (each : List.Forall₂ (fun _ j => firstFault? j = none) xs js) : firstFaultIn? js = none := by
  induction each with
  | nil => rfl
  | cons first _ ih => rw [firstFaultIn?, first, ih, Option.or_none]

end Json

/-- How a style draws the parts of a graph: each port that can be referred to and shown, and a wire
between ports that can be referred to; and which of these parts it can write. -/
structure JsonStyle.Draws (style : JsonStyle) (g : Graph) (shows prints : PortKey → Prop) :
    Prop where
  port : ∀ q ∈ g.ports, Writes (style.port g q) ((g.port q).id.isWritable = true ∧ shows q)
    fun j => Json.FaultUnless (prints q) j.firstFault?
  wire : ∀ w : NumberedWire, w.wire.sourcePort ∈ g.ports → w.wire.targetPort ∈ g.ports →
    Writes (style.wire g w) ((g.port w.wire.sourcePort).id.isWritable = true ∧
      (g.port w.wire.targetPort).id.isWritable = true) fun j => j.firstFault? = none
  node : ∀ k ∈ g.roster, ∀ ports children wires last,
    (style.node g k ports children wires last).firstFault? = (Json.firstFaultIn? ports).or
      ((Json.firstFaultIn? children).or (Json.firstFaultIn? wires))
  document : ∀ (title : Text) (root : Option Json),
    (style.document (.text title) root).firstFault? = Json.firstFaultIn? root.toList

namespace JsonStyle.Draws

open Json

variable {style : JsonStyle} {g : Graph} {shows prints : PortKey → Prop}

mutual

theorem writes_draw (law : style.Draws g shows prints) (hg : g.Coherent) : ∀ (o : Outline)
    (n : Numbering), o.Unfolds g → Writes (style.draw g (Block.ofOutline g n o).1)
      (∀ q ∈ o.allPorts g, (g.port q).id.isWritable = true ∧ shows q)
      fun j => FaultUnless (∀ q ∈ o.allPorts g, prints q) j.firstFault?
  | .node k os, n, unfolds => by
    have hk := unfolds.1
    have listed : ∀ q ∈ g.portsOf k, q ∈ g.ports := fun q hq => hg.mem_ports.mpr ⟨k, hk, hq⟩
    have ends : ∀ w ∈ ((Block.ofOutlines g n os).2.wires (g.wires k)).1,
        w.wire.sourcePort ∈ g.ports ∧ w.wire.targetPort ∈ g.ports := fun w hw =>
      (hg.lies hk (Numbering.wire_mem hw)).ends hg
    have ports := Writes.mapM fun q hq => law.port q (listed q hq)
    have children := writes_drawAll law hg os n unfolds.2.2
    have wires := Writes.mapM fun w hw => law.wire w (ends w hw).1 (ends w hw).2
    rw [Graph.ofOutline_node, draw, Outline.allPorts_node]
    refine (ports.bind fun ps owns => children.bind fun js inner => wires.bind fun ws joined =>
      Writes.pure ?_).congr ?_
    · rw [law.node k hk, firstFaultIn?_of_sound joined, Option.or_none, List.forall_mem_append]
      exact (FaultUnless.all owns).or inner
    · rw [List.forall_mem_append]
      constructor
      · exact fun h => ⟨h.1, h.2.1⟩
      · rintro ⟨own, below⟩
        refine ⟨own, below, fun w hw => ?_, trivial⟩
        have all : ∀ q ∈ (Outline.node k os).allPorts g, (g.port q).id.isWritable = true := by
          rw [Outline.allPorts_node, List.forall_mem_append]
          exact ⟨fun q hq => (own q hq).1, fun q hq => (below q hq).1⟩
        have inside := hg.ends_inside unfolds (Numbering.wire_mem hw)
        exact ⟨all _ inside.1, all _ inside.2⟩

theorem writes_drawAll (law : style.Draws g shows prints) (hg : g.Coherent) :
    ∀ (os : List Outline) (n : Numbering), Outline.UnfoldAll g os →
      Writes (style.drawAll g (Block.ofOutlines g n os).1)
        (∀ q ∈ Outline.allPortsOf g os, (g.port q).id.isWritable = true ∧ shows q)
        fun js => FaultUnless (∀ q ∈ Outline.allPortsOf g os, prints q) (firstFaultIn? js)
  | [], n, _ => by
    have vacuous {p : PortKey → Prop} : True ↔ ∀ q ∈ Outline.allPortsOf g [], p q :=
      iff_of_true trivial (List.forall_mem_nil p)
    have nothing : Writes (pure []) True fun js =>
        FaultUnless (∀ q ∈ Outline.allPortsOf g [], prints q) (firstFaultIn? js) :=
      .pure (FaultUnless.none.congr vacuous)
    exact nothing.congr vacuous
  | o :: os, n, unfold => by
    have first := writes_draw law hg o n unfold.1
    have rest := writes_drawAll law hg os (Block.ofOutline g n o).2 unfold.2
    rw [Graph.ofOutlines_cons, drawAll, Outline.allPortsOf_cons]
    refine (first.bind fun j faults => rest.bind fun js later => Writes.pure ?_).congr ?_
    · rw [firstFaultIn?, List.forall_mem_append]
      exact faults.or later
    · rw [List.forall_mem_append, and_true]

end

end JsonStyle.Draws

end Schematic
