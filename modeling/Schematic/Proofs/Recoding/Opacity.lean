import Schematic.Proofs.Recoding.Interface

/-! Identities are opaque: what is extracted and drawn depends on which of them are equal, and on
nothing else about them. -/

namespace Schematic

open Json

namespace DebugJson

variable {c : Recoding} {g : Graph} {title : Value} {b : Block} {root root' : Json} {text : Text}
  {allowed : Json → Prop} {fails : Prop}

theorem document_eq (title root : Json) : style.document title (some root) = .object
    [("id", .text "0"), ("labels", JsonStyle.label title),
      ("layoutOptions", .object [("algorithm", .text "layered")]), ("children", .array [root]),
      ("edges", .array [])] := rfl

theorem document_agrees (agrees : AgreeOutside "interface" allowed root root') (title : Json) :
    AgreeOutside "interface" allowed (style.document title (some root))
      (style.document title (some root')) := by
  rw [document_eq, document_eq]
  exact .object (.cons "id" (.same _) (.cons "labels" (.same _) (.cons "layoutOptions" (.same _)
    (.cons "children" (.array (.cons agrees .nil)) (.refl _)))))

theorem isSound_of_document {title : Json}
    (sound : (style.document title (some root)).IsSound) : root.IsSound := by
  rw [document_eq, IsSound, firstFault?] at sound
  have children := firstFaultOf?_eq_none sound "children" (j := .array [root])
    (.tail _ (.tail _ (.tail _ (.head _))))
  rw [IsSound, firstFault?, firstFaultIn?, Option.or_eq_none_iff] at children
  exact children.1

theorem render_recoded (made : style.render title g (some b) = .ok text) :
    ((∀ p ∈ b.allPorts, (c.apply (g.port p).identity).isWritable = true) →
      ∃ doc doc' : Json, AgreeOutside "interface" IsSound doc doc' ∧
        text = doc.print 4 0 ++ "\n" ∧
          style.render title (g.recoded c) (some b) = .ok (doc'.print 4 0 ++ "\n")) ∧
    ((∃ p ∈ b.allPorts, (c.apply (g.port p).identity).isWritable = false) →
      style.render title (g.recoded c) (some b) = .error .tooLongToWrite) := by
  obtain ⟨root, drawn, sound, rfl⟩ := JsonStyle.exists_of_render made
  constructor
  · intro writable
    rcases follows_draw (c := c) b (fun p hp => shows_of_isWritable (writable p hp)) drawn with
      ⟨root', drawn', agrees⟩ | ⟨never, -⟩
    · have agree := document_agrees agrees (.ofValue title)
      have sound' : (style.document (.ofValue title) (some root')).firstFault? = none := by
        rcases agree.isFaultOf sound with none | ⟨v, whole, same⟩
        · exact none
        · exact same ▸ whole
      exact ⟨_, _, agree, rfl, JsonStyle.render_of_isSound drawn' sound'⟩
    · exact never.elim
  · rintro ⟨p, hp, long⟩
    rcases follows_draw (c := c) b (fun p _ => shows_any (c.apply (g.port p).identity)) drawn with
      ⟨root', drawn', agrees⟩ | ⟨-, failed⟩
    · have fault : (style.document (.ofValue title) (some root')).firstFault? = some .tooLong := by
        have unsound : (style.document (.ofValue title) (some root')).firstFault? ≠ none := by
          intro sound'
          have each := isWritable_of_draw b drawn' (isSound_of_document sound') p hp
          rw [Graph.port_recoded] at each
          cases long.symm.trans each
        rcases (document_agrees agrees (.ofValue title)).isFaultOf sound with none | ⟨v, some, same⟩
        · exact absurd none unsound
        · exact some.elim (fun none => absurd (same ▸ none) unsound) (same ▸ id)
      exact JsonStyle.render_of_fault drawn' fault
    · have failed : (some b).mapM (style.draw (g.recoded c)) = .error .tooLongToWrite :=
        congrArg (some <$> ·) failed
      rw [JsonStyle.render, failed]
      rfl

end DebugJson

variable {σ τ : Type}

/-- Identities are opaque. Objects with other identities that are equal where the given ones are
equal get the same names, and what is extracted from them is the same graph, with the log and the
failures too, but for the identities of its ports. It has the same wires with the same labels, and
the same documents in all formats that show no identities. The document that shows them differs in
what it shows of them alone, and it can be written exactly if all of them can. -/
theorem identities_matter_by_equality_only (c : Recoding) (options : SurveyOptions)
    (objects : List SimObject)
    (known : ∀ f ∈ SimObject.reportsAmong objects, c.Knows f.identity) (s : σ) (t : τ) :
    SimObject.withNames (SimObject.recodedAll c objects) =
        (SimObject.withNames objects).map (SimObject.recodedAll c) ∧
      ∀ forest, SimObject.withNames objects = .ok forest →
        extract options (SimObject.recodedAll c forest) s =
            (extract options forest s).map (Graph.recoded c) ∧
          ∀ g, (extract options forest s).answer = .ok g →
            (∀ k, (g.recoded c).wires k = g.wires k) ∧
            (∀ w, (g.recoded c).wireLabel w = g.wireLabel w) ∧
            (∀ format title, format ≠ .debugJson →
              render format title (g.recoded c) t = render format title g t) ∧
            ∀ title text, (render .debugJson title g t).answer = .ok text →
              ((∀ p ∈ g.ports, (c.apply (g.port p).identity).isWritable = true) →
                ∃ doc doc' : Json, AgreeOutside "interface" IsSound doc doc' ∧
                  text = doc.print 4 0 ++ "\n" ∧
                  (render .debugJson title (g.recoded c) t).answer =
                    .ok (doc'.print 4 0 ++ "\n")) ∧
              ((∃ p ∈ g.ports, (c.apply (g.port p).identity).isWritable = false) →
                (render .debugJson title (g.recoded c) t).answer = .error .tooLongToWrite) := by
  refine ⟨SimObject.withNames_recoded c objects, fun forest named => ?_⟩
  obtain rfl := SimObject.eq_of_withNames named
  have reported := SimObject.identities_namedAll objects (.text .empty) known
  obtain ⟨same, knows⟩ := extract_recoded options reported s
  refine ⟨same, fun g extracted => ?_⟩
  have held := knows g extracted
  refine ⟨Graph.wires_recoded held, Graph.wireLabel_recoded c g, ?_, ?_⟩
  · intro format title silent
    rw [render_recoded held silent]
  · intro title text made
    rw [answer_render rfl] at made ⊢
    obtain ⟨r, rooted, made⟩ := exists_of_bind_ok made
    obtain ⟨o, outlined⟩ := Graph.exists_outline rooted
    obtain ⟨b, drawn⟩ : ∃ b, g.block? = some b := ⟨_, congrArg (Option.map _) outlined⟩
    rw [drawn] at made
    rw [Graph.block?_recoded held, drawn, show (g.recoded c).root = .ok r from rooted]
    have shown := DebugJson.render_recoded (c := c) made
    rw [Graph.allPorts_of_block? drawn] at shown
    exact shown

/-- Each identity as the only item of a tuple. -/
def Recoding.boxed : Recoding where
  covers v := v.IsIdentity ∧ v.isNull = false
  map v := .tuple [v]
  proper := id
  maps := by
    intro v proper
    refine ⟨⟨?_, rfl⟩, rfl⟩
    rw [Value.isHashable, Value.areHashable, proper.1.1]
    rfl
  equal := by
    intro v w hv hw
    have key {x : Value} (proper : x.IsIdentity) : (Value.tuple [x]).IsIdentity := by
      refine ⟨?_, rfl⟩
      rw [Value.isHashable, Value.areHashable, proper.1]
      rfl
    rw [Bool.eq_iff_iff, Value.equal_iff (key hv.1) (key hw.1), Value.equal_iff hv.1 hw.1]
    simp [Value.meaning, Value.meanings]

/-- A driver two levels below the root and a receiver one level below it, with equal identities. -/
def capturedEquals : List SimObject :=
  [.module (.text "r")
    [.module (.text "a")
      [.module (.text "b") [.port (.text "x") (.text "sc_out") (.text "output") (.int 1)]],
      .module (.text "c") [.port (.text "y") (.text "sc_in") (.text "input") (.bool true)]]]

theorem identities_matter_by_equality_only_in_tuples :
    (∀ f ∈ SimObject.reportsAmong capturedEquals, Recoding.boxed.Knows f.identity) ∧
      ∃ forest g text, SimObject.withNames capturedEquals = .ok forest ∧
        (extract {} forest ()).answer = .ok g ∧
        (extract {} (SimObject.recodedAll .boxed forest) ()).answer = .ok (g.recoded .boxed) ∧
        (render .elkText (.text "r") (g.recoded .boxed) ()).answer =
          (render .elkText (.text "r") g ()).answer ∧
        (render .debugJson (.text "r") g ()).answer = .ok text ∧
        ∃ doc doc' : Json, AgreeOutside "interface" IsSound doc doc' ∧
          text = doc.print 4 0 ++ "\n" ∧
          (render .debugJson (.text "r") (g.recoded .boxed) ()).answer =
            .ok (doc'.print 4 0 ++ "\n") := by
  have known : ∀ f ∈ SimObject.reportsAmong capturedEquals, Recoding.boxed.Knows f.identity := by
    simp only [capturedEquals, SimObject.reportsAmong, SimObject.module, SimObject.port,
      SimObject.ofFacts, SimObject.reports, List.map_nil, List.nil_append,
      List.append_nil, List.cons_append, List.forall_mem_cons, List.not_mem_nil, false_implies,
      implies_true, and_true]
    and_intros <;> first | exact .inl rfl | exact .inr ⟨⟨rfl, rfl⟩, rfl⟩
  refine ⟨known, ?_⟩
  have shape : ((SimObject.withNames capturedEquals).toOption.bind fun forest =>
      (extract {} forest ()).answer.toOption).any (fun g =>
        (render .debugJson (.text "r") g ()).answer.toOption.isSome &&
          g.ports.all fun p => (Recoding.boxed.apply (g.port p).identity).isWritable) = true := by
    decide +kernel
  obtain ⟨forest, g, named, extracted, found⟩ := exists_of_extracts shape
  rw [Bool.and_eq_true, List.all_eq_true] at found
  obtain ⟨same, each⟩ :=
    (identities_matter_by_equality_only .boxed {} capturedEquals known () ()).2 forest named
  obtain ⟨-, -, silent, shown⟩ := each g extracted
  cases made : (render .debugJson (.text "r") g ()).answer with
  | error e =>
    rw [made] at found
    cases found.1
  | ok text =>
    refine ⟨forest, g, text, named, extracted, ?_, ?_, made, (shown _ text made).1 found.2⟩
    · rw [same, Outcome.map, extracted]
      rfl
    · rw [silent .elkText _ (by decide)]

end Schematic
