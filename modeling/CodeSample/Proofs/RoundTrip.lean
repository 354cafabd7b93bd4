import CodeSample.Proofs.AlikeCSharp
import CodeSample.Proofs.Mirrors
import CodeSample.Proofs.NodeCodec

/-!
# Trees that are written and read back

A tree that a parser hands over can be written in the exchanged form and read back. What is read
back differs from the tree in places that are not known and sources that are null only, and it
renders as the tree does.

* `Rendering.TellsAs` says that two renderings have the same text and the same reports, as texts;
* `Target.mirrored_render`: the finished output of a rebuilt tree;
* `Node.exists_roundTrip` is the statement for everything that can be read.
-/

namespace CodeSample

/-- Two renderings have the same text and the same reports, as texts. -/
structure Rendering.TellsAs (r' r : Rendering) : Prop where
  text : r'.text = r.text
  diagnostics : r'.diagnostics.map Diagnostic.toText = r.diagnostics.map Diagnostic.toText

/-- A rebuilt tree is rendered for a target as the tree is. -/
theorem Target.mirrored_render {checker : Checker} (hchecker : checker.Overlooks) (target : Data)
    (options : List (String × Data)) (root : Value) :
    Mirrored Rendering.TellsAs (Target.render target options checker root.rebuilt)
      (Target.render target options checker root) := by
  have htally := Target.tally_render hchecker.checkers (Value.alike_rebuilt root) target options
  refine Mirrored.tally_iff.2 (htally.mono (fun _ _ h => h) fun r' r h => ⟨h.text, ?_⟩)
  have htold : List.Forall₂ Eq (r'.diagnostics.map Diagnostic.toText)
      (r.diagnostics.map Diagnostic.toText) := by
    rw [List.forall₂_map_left_iff, List.forall₂_map_right_iff]
    refine h.diagnostics.imp fun d' d hd => ?_
    rw [hd.eq_rebuilt, Diagnostic.toText_rebuilt]
  rwa [List.forall₂_eq_eq_eq] at htold

/-! ### Round trips -/

/-- A tree that can be read, in which all sources are texts or null, and the texts of names and
literals and the names in types are texts, is written, and what is written is read back as the same
tree but for the places that are not known, which are `Pos.unknown` then, and the sources that are
null, which are empty then. Written again it is the same datum, and it is rendered to the same text
with the same reports, or fails for the same reason. -/
theorem Node.exists_roundTrip {d : Data} {v : Value} (hd : d.isLegible = true)
    (h : Node.ofData d = .ok v) :
    ∃ e, v.toData = .ok e ∧ Node.ofData e = .ok v.rebuilt ∧ v.rebuilt.toData = .ok e ∧
      ∀ checker : Checker, (checker = .recorded ∨ ∃ ascriptions expressions,
          checker = .ofTables ascriptions expressions) →
        ∀ (target : Data) (options : List (String × Data)),
          Mirrored Rendering.TellsAs (Target.render target options checker v.rebuilt)
            (Target.render target options checker v) := by
  obtain ⟨e, he, hback, hagain⟩ := Node.exists_toData hd h
  refine ⟨e, he, hback, hagain, ?_⟩
  intro checker hchecker target options
  have hoverlooks : checker.Overlooks := by
    rcases hchecker with rfl | ⟨ascriptions, expressions, rfl⟩
    · exact Checker.overlooks_recorded
    · exact Checker.overlooks_ofTables ascriptions expressions
  exact Target.mirrored_render hoverlooks target options v

/-- A declaration as a parser may hand it over: with a source that is null, places that are not
known, and a type with an alias that is null. -/
def price : Data :=
  let nothing : Data := .object [("kind", .text "primitive"), ("name", .text "undefined")]
  let money : Data := .object [("name", .text "Money"), ("struct", .int 1), ("alias", .null),
    ("kind", .text "named")]
  .object [("kind", .text "VariableDeclaration"), ("pos", .list [.int (-2), .int 7]),
    ("source", .null),
    ("type", .object [("kind", .text "TypeNode"), ("pos", .list [.int 3, .int 1]),
      ("typ", .object [("kind", .text "union"), ("members", .list [money, nothing])])]),
    ("name", .object [("text", .text "price"), ("kind", .text "Identifier"), ("source", .null)])]

/-- The declaration as it is read. -/
def priceTree : Value :=
  .node .variableDeclaration ⟨-2, 7⟩ .null none [
    .node .identifier .unknown (.text "price") none [.text "price"],
    .node .typeNode ⟨3, 1⟩ (.text "Money | undefined")
      (some (.union [.named (.text "Money") .null true, .undefined])) [],
    .null]

/-- The declaration is written and read back as it was but for its place. -/
theorem Node.exists_roundTrip_price :
    price.isLegible = true ∧ Node.ofData price = .ok priceTree ∧
    ∃ e, priceTree.toData = .ok e ∧ Node.ofData e = .ok priceTree.rebuilt ∧
      priceTree.rebuilt.toData = .ok e ∧
      Mirrored Rendering.TellsAs
        (Target.render (.text CSharp.name) [] .recorded priceTree.rebuilt)
        (Target.render (.text CSharp.name) [] .recorded priceTree) := by
  have hlegible : price.isLegible = true := by rfl
  have hread : Node.ofData price = .ok priceTree := by rfl
  obtain ⟨e, he, hback, hagain, hrender⟩ := Node.exists_roundTrip hlegible hread
  exact ⟨hlegible, hread, e, he, hback, hagain, hrender .recorded (Or.inl rfl) _ _⟩

end CodeSample
