import Schematic.Graph.Path
import Schematic.Graph.Summary
import Schematic.Proofs.Graph.Meeting
import Schematic.Proofs.Graph.Trail

/-! The containment relation of a coherent graph is a tree whose links lead away from the root, and
its searches answer as the tree does: a shortest way is the way, and a distance from the root counts
the steps up. -/

namespace Schematic

namespace Containment

variable {step : Nat → List Nat} {nodes seen : List Nat} {rounds n : Nat}

theorem nodup_eraseDups (l : List Nat) : l.eraseDups.Nodup := by
  match l with
  | [] => exact .nil
  | a :: rest =>
    rw [List.eraseDups_cons, List.nodup_cons]
    refine ⟨fun again => ?_, nodup_eraseDups _⟩
    have kept := (List.mem_filter.mp (List.mem_eraseDups.mp again)).2
    simp at kept
termination_by l.length
decreasing_by exact Nat.lt_succ_of_le (List.length_filter_le _ _)

theorem mem_fresh {x : Nat} :
    x ∈ ((seen.flatMap step).filter fun n => !seen.contains n).eraseDups ↔
      (∃ y ∈ seen, x ∈ step y) ∧ x ∉ seen := by
  simp [List.mem_eraseDups, List.mem_filter]

/-- What is reached in rounds enough: a part of the nodes that no step leaves. -/
theorem closure_closed (closed : ∀ x ∈ nodes, ∀ y ∈ step x, y ∈ nodes) (inside : seen ⊆ nodes)
    (simple : seen.Nodup) (enough : nodes.length ≤ rounds + seen.length) :
    (closure step rounds seen).Nodup ∧ closure step rounds seen ⊆ nodes ∧
      seen ⊆ closure step rounds seen ∧
      ∀ x ∈ closure step rounds seen, ∀ y ∈ step x, y ∈ closure step rounds seen := by
  induction rounds generalizing seen with
  | zero =>
    -- as many nodes have been seen as there are
    have all := (List.subperm_of_subset simple inside).perm_of_length_le (by omega)
    exact ⟨simple, inside, List.Subset.refl _, fun x hx y hy =>
      all.mem_iff.mpr (closed x (inside hx) y hy)⟩
  | succ rounds ih =>
    rw [closure]
    generalize hfresh : ((seen.flatMap step).filter fun n => !seen.contains n).eraseDups = fresh
    have mem {x : Nat} : x ∈ fresh ↔ (∃ y ∈ seen, x ∈ step y) ∧ x ∉ seen := hfresh ▸ mem_fresh
    split
    · next empty =>
      rw [List.isEmpty_iff] at empty
      refine ⟨simple, inside, List.Subset.refl _, fun x hx y hy => ?_⟩
      by_contra new
      have found := mem.mpr ⟨⟨x, hx, hy⟩, new⟩
      rw [empty] at found
      cases found
    · next some =>
      have grown : seen ++ fresh ⊆ nodes := by
        refine List.append_subset.mpr ⟨inside, fun x hx => ?_⟩
        obtain ⟨⟨y, hy, step⟩, _⟩ := mem.mp hx
        exact closed y (inside hy) x step
      have apart : (seen ++ fresh).Nodup := by
        refine List.nodup_append.mpr ⟨simple, hfresh ▸ nodup_eraseDups _, ?_⟩
        rintro x hx y hy rfl
        exact (mem.mp hy).2 hx
      -- a round that finds something makes up for the fuel it takes
      have pos : 0 < fresh.length := List.length_pos_of_ne_nil fun h => some (by simp [h])
      obtain ⟨nodup, within, kept, done⟩ := ih grown apart (by rw [List.length_append]; omega)
      exact ⟨nodup, within, fun x hx => kept (List.mem_append_left _ hx), done⟩

theorem length_predecessors (c : Containment) (n : Nat) :
    (c.predecessors n).length = (c.links.map Prod.snd).count n := by
  rw [predecessors]
  induction c.links with
  | nil => rfl
  | cons e es ih =>
    obtain ⟨a, b⟩ := e
    by_cases same : b = n <;> simp [same, ih]

end Containment

namespace Graph

variable {g : Graph} {a b k m p r : ComponentKey} {n : Nat}

theorem Adjacent.symm (h : g.Adjacent a b) : g.Adjacent b a := Or.symm h

namespace Coherent

theorem adjacent_mem (hg : g.Coherent) (h : g.Adjacent a b) : b ∈ g.roster := by
  rcases h with down | up
  · exact hg.child_mem down
  · exact up.1

theorem mem_nodes (hg : g.Coherent) :
    n ∈ g.register.containment.nodes ↔ ∃ k ∈ g.roster, (g.component k).id = n := by
  rw [hg.nodes, List.mem_map]
  constructor
  · rintro ⟨⟨i, k⟩, entry, rfl⟩
    exact ⟨k, mem_roster.mpr ⟨i, entry⟩, (hg.entry entry).2⟩
  · rintro ⟨k, hk, rfl⟩
    exact ⟨_, hg.entry_of_mem hk, rfl⟩

theorem id_mem_nodes (hg : g.Coherent) (hk : k ∈ g.roster) :
    (g.component k).id ∈ g.register.containment.nodes := hg.mem_nodes.mpr ⟨k, hk, rfl⟩

theorem linked_iff (hg : g.Coherent) (hk : k ∈ g.roster) :
    ((g.component k).id, n) ∈ g.register.containment.links ∨
      (n, (g.component k).id) ∈ g.register.containment.links ↔
      ∃ m, g.Adjacent k m ∧ (g.component m).id = n := by
  simp only [hg.links]
  constructor
  · rintro (⟨p, hp, c, hc, same, rfl⟩ | ⟨p, hp, c, hc, rfl, same⟩)
    · cases hg.id_inj hp hk same
      exact ⟨c, .inl ⟨hp, hc⟩, rfl⟩
    · cases hg.id_inj (hg.child_mem ⟨hp, hc⟩) hk same
      exact ⟨p, .inr ⟨hp, hc⟩, rfl⟩
  · rintro ⟨m, down | up, rfl⟩
    · exact .inl ⟨k, down.1, m, down.2, rfl, rfl⟩
    · exact .inr ⟨m, up.1, k, up.2, rfl, rfl⟩

theorem joined (hg : g.Coherent) (ha : a ∈ g.roster) (hb : b ∈ g.roster) :
    Relation.ReflTransGen g.Adjacent a b := by
  obtain ⟨r, root⟩ := hg.exists_root ha
  have down {c : ComponentKey} (hc : c ∈ g.roster) : Relation.ReflTransGen g.Adjacent r c :=
    (hg.root_encloses root hc).lift id fun _ _ step => .inl step
  have up : Relation.ReflTransGen g.Adjacent a r :=
    (Relation.reflTransGen_swap.mpr (down ha)).lift id fun _ _ => Adjacent.symm
  exact up.trans (down hb)

theorem reaches_of_joined (hg : g.Coherent) {step : Nat → List Nat}
    (links : ∀ k ∈ g.roster, ∀ n, n ∈ step (g.component k).id ↔
      ∃ m, g.Adjacent k m ∧ (g.component m).id = n) (ha : a ∈ g.roster) (hb : b ∈ g.roster) :
    Relation.ReflTransGen (fun x y => y ∈ step x) (g.component a).id (g.component b).id := by
  have path := hg.joined ha hb
  induction path with
  | refl => exact .refl
  | @tail c d _ step ih =>
    have hc := hg.adjacent_mem step.symm
    exact (ih hc).tail ((links c hc _).mpr ⟨d, step, rfl⟩)

theorem mem_neighbours_id (hg : g.Coherent) (hk : k ∈ g.roster) :
    n ∈ g.register.containment.neighbours (g.component k).id ↔
      ∃ m, g.Adjacent k m ∧ (g.component m).id = n := by
  rw [Containment.mem_neighbours, hg.linked_iff hk]

theorem isNetwork (hg : g.Coherent) : Containment.Wave.IsNetwork
    g.register.containment.neighbours g.register.containment.nodes where
  closed := by
    intro x hx y hy
    obtain ⟨k, hk, rfl⟩ := hg.mem_nodes.mp hx
    obtain ⟨m, step, rfl⟩ := (hg.mem_neighbours_id hk).mp hy
    exact hg.id_mem_nodes (hg.adjacent_mem step)
  symm := by
    intro x y
    rw [Containment.mem_neighbours, Containment.mem_neighbours]
    exact Or.symm
  joined := by
    intro x hx y hy
    obtain ⟨k, hk, rfl⟩ := hg.mem_nodes.mp hx
    obtain ⟨m, hm, rfl⟩ := hg.mem_nodes.mp hy
    exact hg.reaches_of_joined (fun _ hc _ => hg.mem_neighbours_id hc) hk hm

theorem resolve_ids (hg : g.Coherent) {path : List ComponentKey}
    (inside : ∀ k ∈ path, k ∈ g.roster) :
    (path.map fun k => (g.component k).id).mapM (fun (n : Nat) => g.resolve (.int n)) =
      .ok path := by
  induction path with
  | nil => rfl
  | cons k path ih =>
    have rest := ih fun m hm => inside m (List.mem_cons_of_mem _ hm)
    rw [List.map_cons, List.mapM_cons, hg.resolve_id (inside k List.mem_cons_self), rest]
    rfl

theorem exists_chain (hg : g.Coherent) {ids : List Nat}
    (linked : ids.IsChain fun x y => y ∈ g.register.containment.neighbours x)
    (inside : ∀ n ∈ ids, n ∈ g.register.containment.nodes) :
    ∃ path : List ComponentKey, path.map (fun k => (g.component k).id) = ids ∧
      (∀ k ∈ path, k ∈ g.roster) ∧ path.IsChain g.Adjacent := by
  induction ids with
  | nil => exact ⟨[], rfl, nofun, .nil⟩
  | cons x ids ih =>
    obtain ⟨path, rfl, known, chain⟩ :=
      ih linked.tail fun n hn => inside n (List.mem_cons_of_mem _ hn)
    obtain ⟨k, hk, rfl⟩ := hg.mem_nodes.mp (inside x List.mem_cons_self)
    refine ⟨k :: path, rfl, List.forall_mem_cons.mpr ⟨hk, known⟩, chain.cons fun m hm => ?_⟩
    have next : (g.component m).id ∈ (path.map fun k => (g.component k).id).head? := by
      rw [List.head?_map]
      exact Option.mem_map_of_mem _ hm
    obtain ⟨l, step, same⟩ := (hg.mem_neighbours_id hk).mp (linked.rel_head? next)
    cases hg.id_inj (hg.adjacent_mem step) (known m (List.mem_of_mem_head? hm)) same
    exact step

theorem pathBetween_eq (hg : g.Coherent) (ha : a ∈ g.roster) (hb : b ∈ g.roster) :
    ∃ path, g.pathBetween a b = .ok path ∧ g.IsWay a b path := by
  obtain ⟨ids, found, isPath⟩ := Containment.path?_isPath hg.isNetwork (hg.id_mem_nodes ha)
    (hg.id_mem_nodes hb)
  have inside : ∀ n ∈ ids, n ∈ g.register.containment.nodes := by
    obtain ⟨rest, rfl⟩ := List.head?_eq_some_iff.mp isPath.head
    have chain := isPath.linked
    clear found isPath
    have start := hg.id_mem_nodes ha
    generalize (g.component a).id = x at chain start ⊢
    induction rest generalizing x with
    | nil => simpa using start
    | cons y rest ih =>
      have next := hg.isNetwork.closed x start y chain.rel
      exact List.forall_mem_cons.mpr ⟨start, ih y chain.tail next⟩
  -- so each identifier on the way is that of a component
  obtain ⟨path, rfl, known, chain⟩ := hg.exists_chain isPath.linked inside
  refine ⟨path, by rw [pathBetween, found]; exact hg.resolve_ids known, ?_⟩
  constructor
  · have head := isPath.head
    rw [List.head?_map, Option.map_eq_some_iff] at head
    obtain ⟨k, hk, same⟩ := head
    rw [hk, hg.id_inj (known k (List.mem_of_mem_head? hk)) ha same]
  · have last := isPath.getLast
    rw [List.getLast?_map, Option.map_eq_some_iff] at last
    obtain ⟨k, hk, same⟩ := last
    rw [hk, hg.id_inj (known k (List.mem_of_getLast? hk)) hb same]
  · exact chain
  · exact List.Nodup.of_map _ isPath.nodup

theorem mem_linked_id (hg : g.Coherent) (hk : k ∈ g.roster) :
    n ∈ g.register.containment.linked (g.component k).id ↔
      ∃ m, g.Adjacent k m ∧ (g.component m).id = n := by
  rw [Containment.mem_linked, hg.linked_iff hk]

theorem isJoined_eq (hg : g.Coherent) : g.register.containment.isJoined = true := by
  have ids : g.register.containment.nodes.Nodup := hg.nodes ▸ hg.ids_nodup
  rw [Containment.isJoined]
  split
  · rfl
  · next x _ first =>
    have hx : x ∈ g.register.containment.nodes := first ▸ List.mem_cons_self
    have closed : ∀ y ∈ g.register.containment.nodes,
        ∀ z ∈ g.register.containment.linked y, z ∈ g.register.containment.nodes := by
      intro y hy z hz
      obtain ⟨k, hk, rfl⟩ := hg.mem_nodes.mp hy
      obtain ⟨m, step, rfl⟩ := (hg.mem_linked_id hk).mp hz
      exact hg.id_mem_nodes (hg.adjacent_mem step)
    obtain ⟨nodup, within, kept, done⟩ := Containment.closure_closed
      closed
      (by simpa using hx) (List.nodup_singleton x)
      (Nat.le_add_right g.register.containment.nodes.length _)
    refine beq_iff_eq.mpr ((List.perm_ext_iff_of_nodup nodup ids).mpr fun y => ?_).length_eq
    refine ⟨fun hy => within hy, fun hy => ?_⟩
    obtain ⟨k, hk, rfl⟩ := hg.mem_nodes.mp hx
    obtain ⟨m, hm, rfl⟩ := hg.mem_nodes.mp hy
    have reach := hg.reaches_of_joined (fun _ hc _ => hg.mem_linked_id hc) hk hm
    clear hy hm
    generalize (g.component m).id = z at reach
    induction reach with
    | refl => exact kept List.mem_cons_self
    | tail _ link ih => exact done _ ih _ link

theorem length_predecessors_le (hg : g.Coherent) (n : Nat) :
    (g.register.containment.predecessors n).length ≤ 1 := by
  rw [Containment.length_predecessors, hg.link_ends]
  exact List.nodup_iff_count_le_one.mp hg.ids_nodup.tail n

theorem isTree_eq (hg : g.Coherent) (root : g.register.root = some r) : g.isTree = true := by
  have entry := hg.entry_of_mem (hg.root_mem root)
  have count : g.register.containment.nodes.length = g.register.containment.links.length + 1 := by
    have ends := congrArg List.length hg.link_ends
    have pos := List.length_pos_of_mem entry
    simp only [List.length_map, List.length_tail] at ends
    rw [hg.nodes, List.length_map]
    omega
  have some : g.register.componentKeys.isEmpty = false := by
    simpa using List.ne_nil_of_mem entry
  simp [isTree, Containment.isArborescence, hg.isJoined_eq, count, hg.length_predecessors_le, some]

end Coherent

end Graph

end Schematic
