import Schematic.Graph.Binding
import Schematic.Proofs.Graph.Preorder

/-! The table of bindings. It holds each bound port once, under the identity that its own one is the
same as. -/

namespace Schematic

namespace Binding

variable {identity : Value} {p : PortKey} {bs before after : List Binding} {b : Binding}

theorem insert_new (h : ∀ b ∈ bs, b.identity.same identity = false) :
    insert identity p bs = bs ++ [⟨identity, [p]⟩] := by
  induction bs with
  | nil => rfl
  | cons b bs ih =>
    have rest := ih fun c hc => h c (List.mem_cons_of_mem _ hc)
    simp [insert, h b List.mem_cons_self, rest]

theorem insert_known (h : ∀ c ∈ before, c.identity.same identity = false)
    (hb : b.identity.same identity = true) :
    insert identity p (before ++ b :: after) =
      before ++ { b with ports := b.ports ++ [p] } :: after := by
  induction before with
  | nil => simp [insert, hb]
  | cons c before ih =>
    have rest := ih fun d hd => h d (List.mem_cons_of_mem _ hd)
    simp [insert, h c List.mem_cons_self, rest]

theorem insert_identity (bs : List Binding) :
    ∀ b ∈ insert identity p bs,
      (∃ c ∈ bs, c.identity = b.identity) ∨ identity = b.identity := by
  induction bs with
  | nil => simp [insert]
  | cons c bs ih =>
    intro b hb
    rw [insert] at hb
    split at hb
    · rcases List.mem_cons.mp hb with rfl | hb
      · exact .inl ⟨c, List.mem_cons_self, rfl⟩
      · exact .inl ⟨b, List.mem_cons_of_mem _ hb, rfl⟩
    · rcases List.mem_cons.mp hb with rfl | hb
      · exact .inl ⟨b, List.mem_cons_self, rfl⟩
      · rcases ih b hb with ⟨d, hd, same⟩ | same
        · exact .inl ⟨d, List.mem_cons_of_mem _ hd, same⟩
        · exact .inr same

end Binding

namespace Graph

def bond (g : Graph) (p : PortKey) : Meaning := (g.port p).identity.meaning

structure IsSorted (g : Graph) (ps : List PortKey) (bs : List Binding) : Prop where
  ports : ∀ b ∈ bs, b.ports = ps.filter fun p => b.identity.same (g.port p).identity
  hashable : ∀ b ∈ bs, b.identity.isHashable = true
  complete : ∀ p ∈ ps, ∃ b ∈ bs, b.identity.meaning = g.bond p
  distinct : bs.Pairwise fun b c => b.identity.meaning ≠ c.identity.meaning

variable {g : Graph} {ps : List PortKey} {bs : List Binding} {b : Binding} {d p r : PortKey}
  {k : ComponentKey}

theorem bindingsOf_identity {bs' : List Binding} (made : g.bindingsOf ps bs = .ok bs') : ∀ b ∈ bs',
      (∃ c ∈ bs, c.identity = b.identity) ∨ ∃ p ∈ ps, (g.port p).identity = b.identity := by
  induction ps generalizing bs with
  | nil =>
    cases made
    exact fun b hb => .inl ⟨b, hb, rfl⟩
  | cons p ps ih =>
    rw [bindingsOf] at made
    split at made
    · intro b hb
      rcases ih made b hb with ⟨c, hc, same⟩ | ⟨q, hq, same⟩
      · rcases Binding.insert_identity bs c hc with ⟨d, hd, same'⟩ | same'
        · exact .inl ⟨d, hd, same'.trans same⟩
        · exact .inr ⟨p, List.mem_cons_self, same'.trans same⟩
      · exact .inr ⟨q, List.mem_cons_of_mem _ hq, same⟩
    · cases made

theorem isSorted_nil (g : Graph) : g.IsSorted [] [] :=
  ⟨nofun, nofun, nofun, .nil⟩

theorem IsSorted.insert_new (h : g.IsSorted ps bs) (hp : (g.port p).identity.isHashable = true)
    (new : ∀ b ∈ bs, b.identity.meaning ≠ g.bond p)
    (old : ∀ q ∈ ps, (g.port q).identity.isHashable) :
    g.IsSorted (ps ++ [p]) (bs ++ [⟨(g.port p).identity, [p]⟩]) where
  ports := by
    intro b hb
    rw [List.filter_append]
    rcases List.mem_append.mp hb with hb | hb
    · have other : b.identity.same (g.port p).identity = false := by
        rw [← Bool.not_eq_true, Value.same_iff (h.hashable b hb) hp]
        exact new b hb
      simp [h.ports b hb, other]
    · cases List.mem_singleton.mp hb
      have itself : (g.port p).identity.same (g.port p).identity = true :=
        (Value.same_iff hp hp).mpr rfl
      have none : (ps.filter fun q => (g.port p).identity.same (g.port q).identity) = [] := by
        refine List.filter_eq_nil_iff.mpr fun q hq same => ?_
        obtain ⟨c, hc, known⟩ := h.complete q hq
        exact new c hc (known.trans ((Value.same_iff hp (old q hq)).mp same).symm)
      simp [none, itself]
  hashable := by
    intro b hb
    rcases List.mem_append.mp hb with hb | hb
    · exact h.hashable b hb
    · cases List.mem_singleton.mp hb
      exact hp
  complete := by
    intro q hq
    rcases List.mem_append.mp hq with hq | hq
    · obtain ⟨b, hb, known⟩ := h.complete q hq
      exact ⟨b, List.mem_append_left _ hb, known⟩
    · cases List.mem_singleton.mp hq
      exact ⟨_, List.mem_append_right _ List.mem_cons_self, rfl⟩
  distinct := by
    refine List.pairwise_append.mpr ⟨h.distinct, List.pairwise_singleton _ _, ?_⟩
    intro b hb c hc
    cases List.mem_singleton.mp hc
    exact new b hb

theorem IsSorted.insert_known {before after : List Binding}
    (h : g.IsSorted ps (before ++ b :: after)) (hp : (g.port p).identity.isHashable = true)
    (same : b.identity.meaning = g.bond p) :
    g.IsSorted (ps ++ [p]) (before ++ { b with ports := b.ports ++ [p] } :: after) where
  ports := by
    obtain ⟨-, later, earlier⟩ := List.pairwise_append.mp h.distinct
    rw [List.pairwise_cons] at later
    have kept : ∀ c ∈ before ++ b :: after, c.identity.meaning ≠ b.identity.meaning →
        c.ports = (ps ++ [p]).filter fun q => c.identity.same (g.port q).identity := by
      intro c hc other
      have out : c.identity.same (g.port p).identity = false := by
        rw [← Bool.not_eq_true, Value.same_iff (h.hashable c hc) hp]
        exact fun clash => other (clash.trans same.symm)
      rw [List.filter_append]
      simp [h.ports c hc, out]
    have member : b ∈ before ++ b :: after := List.mem_append_right _ List.mem_cons_self
    have joined : b.identity.same (g.port p).identity = true :=
      (Value.same_iff (h.hashable b member) hp).mpr same
    rw [List.forall_mem_append, List.forall_mem_cons]
    refine ⟨fun c hc => ?_, ?_, fun c hc => ?_⟩
    · exact kept c (List.mem_append_left _ hc) (earlier c hc b List.mem_cons_self)
    · rw [List.filter_append]
      simp [h.ports b member, joined]
    · exact kept c (List.mem_append_right _ (List.mem_cons_of_mem _ hc)) (later.1 c hc).symm
  hashable := by
    have old := h.hashable
    rwa [List.forall_mem_append, List.forall_mem_cons] at old ⊢
  complete := by
    rw [List.forall_mem_append]
    constructor
    · simpa [or_and_right, exists_or] using h.complete
    · intro q hq
      cases List.mem_singleton.mp hq
      exact ⟨_, List.mem_append_right _ List.mem_cons_self, same⟩
  distinct := by
    have apart := h.distinct
    rw [List.pairwise_append, List.pairwise_cons] at apart ⊢
    obtain ⟨front, back, across⟩ := apart
    refine ⟨front, back, fun c hc => ?_⟩
    have past := across c hc
    rwa [List.forall_mem_cons] at past ⊢

theorem IsSorted.insert (h : g.IsSorted ps bs) (hp : (g.port p).identity.isHashable = true)
    (old : ∀ q ∈ ps, (g.port q).identity.isHashable) :
    g.IsSorted (ps ++ [p]) (Binding.insert (g.port p).identity p bs) := by
  have agree : ∀ b ∈ bs, b.identity.same (g.port p).identity = true ↔
      b.identity.meaning = g.bond p := fun b hb => Value.same_iff (h.hashable b hb) hp
  cases found : bs.find? fun b => b.identity.same (g.port p).identity with
  | none =>
    have absent := List.find?_eq_none.mp found
    rw [Binding.insert_new fun b hb => Bool.not_eq_true _ ▸ absent b hb]
    exact h.insert_new hp (fun b hb same => absent b hb ((agree b hb).mpr same)) old
  | some b =>
    obtain ⟨known, before, after, rfl, earlier⟩ := List.find?_eq_some_iff_append.mp found
    rw [Binding.insert_known (fun c hc => by simpa using earlier c hc) known]
    refine h.insert_known hp ((agree b ?_).mp known)
    exact List.mem_append_right _ List.mem_cons_self

theorem bindingsOf_sorted {qs : List PortKey} (h : g.IsSorted ps bs)
    (hashable : ∀ q ∈ ps ++ qs, (g.port q).identity.isHashable = true) :
    ∃ bs', g.bindingsOf qs bs = .ok bs' ∧ g.IsSorted (ps ++ qs) bs' := by
  induction qs generalizing ps bs with
  | nil => exact ⟨bs, rfl, by rwa [List.append_nil]⟩
  | cons q qs ih =>
    have hq := hashable q (List.mem_append_right _ List.mem_cons_self)
    have step := h.insert hq fun p hp => hashable p (List.mem_append_left _ hp)
    obtain ⟨bs', done, sorted⟩ := ih step (by simpa using hashable)
    refine ⟨bs', by simp [bindingsOf, hq, done], by simpa using sorted⟩

theorem bindings_sorted (h : ∀ q ∈ g.boundPorts, (g.port q).identity.isHashable = true) :
    ∃ bs, g.bindings = .ok bs ∧ g.IsSorted g.boundPorts bs :=
  bindingsOf_sorted (isSorted_nil g) (by simpa using h)

/-- Two ports that take part in one binding, the first as a driver and the second as a receiver. -/
structure Joins (g : Graph) (d r : PortKey) : Prop where
  driver : d ∈ g.ports
  receiver : r ∈ g.ports
  output : (g.port d).isInput = false
  input : (g.port r).isInput = true
  bound : g.bond r ≠ .null
  bond : g.bond d = g.bond r

theorem mem_boundPorts (h : (g.port p).identity.isHashable = true) :
    p ∈ g.boundPorts ↔ p ∈ g.ports ∧ g.bond p ≠ .null := by
  simp [boundPorts, Port.isBound, ← Value.isNull_iff h, bond]

theorem IsSorted.mem_ports (h : g.IsSorted ps bs) (hb : b ∈ bs)
    (hashable : ∀ q ∈ ps, (g.port q).identity.isHashable = true) :
    p ∈ b.ports ↔ p ∈ ps ∧ b.identity.meaning = g.bond p := by
  rw [h.ports b hb, List.mem_filter]
  exact and_congr_right fun hp => Value.same_iff (h.hashable b hb) (hashable p hp)

theorem mem_bindingPairs :
    (d, r) ∈ b.pairs g ↔ (d ∈ b.ports ∧ (g.port d).isInput = false) ∧
      r ∈ b.ports ∧ (g.port r).isInput = true := by
  simp [Binding.pairs, Binding.drivers, Binding.receivers]

theorem IsSorted.mem_pairs (hashable : ∀ q ∈ g.ports, (g.port q).identity.isHashable = true)
    (h : g.IsSorted g.boundPorts bs) :
    (d, r) ∈ bs.flatMap (fun b => b.pairs g) ↔ g.Joins d r := by
  have sub : ∀ q ∈ g.boundPorts, q ∈ g.ports := fun q hq => (List.mem_filter.mp hq).1
  have keys : ∀ q ∈ g.boundPorts, (g.port q).identity.isHashable = true := fun q hq =>
    hashable q (sub q hq)
  rw [List.mem_flatMap]
  constructor
  · rintro ⟨b, hb, hpair⟩
    obtain ⟨⟨hd, output⟩, hr, input⟩ := mem_bindingPairs.mp hpair
    rw [h.mem_ports hb keys] at hd hr
    have hr' := (mem_boundPorts (keys r hr.1)).mp hr.1
    exact ⟨sub d hd.1, hr'.1, output, input, hr'.2, hd.2.symm.trans hr.2⟩
  · intro joins
    have hd := (mem_boundPorts (hashable d joins.driver)).mpr
      ⟨joins.driver, joins.bond ▸ joins.bound⟩
    have hr := (mem_boundPorts (hashable r joins.receiver)).mpr ⟨joins.receiver, joins.bound⟩
    obtain ⟨b, hb, known⟩ := h.complete r hr
    refine ⟨b, hb, mem_bindingPairs.mpr ⟨⟨?_, joins.output⟩, ?_, joins.input⟩⟩
    · exact (h.mem_ports hb keys).mpr ⟨hd, known.trans joins.bond.symm⟩
    · exact (h.mem_ports hb keys).mpr ⟨hr, known⟩

theorem IsSorted.perm {bs' : List Binding} (h : g.IsSorted ps bs) (perm : bs'.Perm bs) :
    g.IsSorted ps bs' where
  ports := fun b hb => h.ports b (perm.mem_iff.mp hb)
  hashable := fun b hb => h.hashable b (perm.mem_iff.mp hb)
  complete := fun p hp => by
    obtain ⟨b, hb, known⟩ := h.complete p hp
    exact ⟨b, perm.mem_iff.mpr hb, known⟩
  distinct := (perm.pairwise_iff Ne.symm).mpr h.distinct

theorem IsSorted.receiver_iff (h : g.IsSorted ps bs)
    (hashable : ∀ q ∈ ps, (g.port q).identity.isHashable = true) {on : PortKey → Bool}
    {μ : Meaning} (mark : ∀ q ∈ ps, on q = true ↔ g.bond q = μ) (hb : b ∈ bs)
    {ends : PortKey × PortKey} (hends : ends ∈ b.pairs g) :
    on ends.2 = true ↔ b.identity.meaning = μ := by
  obtain ⟨d, r⟩ := ends
  obtain ⟨inside, known⟩ := (h.mem_ports hb hashable).mp (mem_bindingPairs.mp hends).2.1
  rw [mark r inside, known]

/-- The drivers and receivers of one binding, whatever its place in the table. -/
theorem IsSorted.filter_pairs (h : g.IsSorted ps bs)
    (hashable : ∀ q ∈ ps, (g.port q).identity.isHashable = true) {on : PortKey → Bool}
    {μ : Meaning} (mark : ∀ q ∈ ps, on q = true ↔ g.bond q = μ) (identity : Value) :
    ((bs.flatMap fun b => b.pairs g).filter fun ends => on ends.2) =
      (⟨identity, ps.filter on⟩ : Binding).pairs g := by
  have none {c : Binding} (hc : c ∈ bs) (other : c.identity.meaning ≠ μ) :
      ((c.pairs g).filter fun ends => on ends.2) = [] :=
    List.filter_eq_nil_iff.mpr fun ends hends hit =>
      other ((h.receiver_iff hashable mark hc hends).mp hit)
  rw [List.filter_flatMap]
  by_cases found : ∃ b ∈ bs, b.identity.meaning = μ
  · obtain ⟨b, hb, known⟩ := found
    obtain ⟨before, after, rfl⟩ := List.append_of_mem hb
    obtain ⟨-, later, earlier⟩ := List.pairwise_append.mp h.distinct
    rw [List.pairwise_cons] at later
    have front : (before.flatMap fun c => (c.pairs g).filter fun ends => on ends.2) = [] :=
      List.flatMap_eq_nil_iff.mpr fun c hc => none (List.mem_append_left _ hc)
        (known ▸ earlier c hc b List.mem_cons_self)
    have back : (after.flatMap fun c => (c.pairs g).filter fun ends => on ends.2) = [] :=
      List.flatMap_eq_nil_iff.mpr fun c hc =>
        none (List.mem_append_right _ (List.mem_cons_of_mem _ hc)) (known ▸ (later.1 c hc).symm)
    have all : ((b.pairs g).filter fun ends => on ends.2) = b.pairs g :=
      List.filter_eq_self.mpr fun ends hends =>
        (h.receiver_iff hashable mark hb hends).mpr known
    have ports : b.ports = ps.filter on := by
      rw [h.ports b hb]
      refine List.filter_congr fun q hq => ?_
      rw [Bool.eq_iff_iff, Value.same_iff (h.hashable b hb) (hashable q hq), mark q hq, known]
      exact eq_comm
    rw [List.flatMap_append, List.flatMap_cons, front, back, all, List.nil_append, List.append_nil,
      Binding.pairs, Binding.drivers, Binding.receivers, ports]
    rfl
  · have empty : ps.filter on = [] := List.filter_eq_nil_iff.mpr fun q hq hit => by
      obtain ⟨b, hb, known⟩ := h.complete q hq
      exact found ⟨b, hb, known.trans ((mark q hq).mp hit)⟩
    rw [empty]
    exact List.flatMap_eq_nil_iff.mpr fun c hc => none hc fun known => found ⟨c, hc, known⟩

end Graph

end Schematic
