/-
JoosStatics.Proofs.Syntax.RoundTrip — what is written as JSON is read back.

Every reader of `Syntax.Decode` returns the value that the writer of the same
type in `Syntax.Encode` was given, in both tag styles. The one condition is
on positions: the trees hold them as natural numbers, and a reader takes
positions below `positionBound` only.

* §1 a field of a record that was written under a key of its own.
* §2–§4 one lemma for each type, from names to type declarations.
* `CompilationUnit.ofJson?_toJson`, `Program.ofJson?_toJson` — units and
  programs.
* `decode_encode` — with the choice that an input file leaves open: a unit is
  never taken for a program, and a program is never taken for a unit.
-/
import JoosStatics.CommandLine
import JoosStatics.Syntax.Blueprint

namespace JoosStatics

open Json

/-! ## §1 Written fields -/

namespace Json

variable {α : Type} {read : Json → Option α} {write : α → Json}

@[simp] theorem required_nil (key : String) : required [] key read = none := rfl

section Members

variable {written key : String} {absent : α} {rest : List (String × Json)}

theorem field_cons_of_ne (value : Json) (h : written ≠ key) :
    field ((written, value) :: rest) key = field rest key := by
  simp [field, h]

/-- A key that is written once gives its value. -/
theorem field_cons_self (value : Json) (h : key ∉ rest.map Prod.fst) :
    field ((key, value) :: rest) key = .present value := by
  have hnone : rest.filter (fun member => member.1 == key) = [] := by
    simp only [List.filter_eq_nil_iff, beq_iff_eq]
    rintro member hmem rfl
    exact h (List.mem_map_of_mem hmem)
  simp [field, hnone]

@[simp] theorem required_cons_of_ne (value : Json) (h : written ≠ key) :
    required ((written, value) :: rest) key read = required rest key read := by
  rw [required, required, field_cons_of_ne value h]

@[simp] theorem required_cons_self (value : Json) (h : key ∉ rest.map Prod.fst) :
    required ((key, value) :: rest) key read = read value := by
  rw [required, field_cons_self value h]

@[simp] theorem defaulted_cons_of_ne (value : Json) (h : written ≠ key) :
    defaulted ((written, value) :: rest) key absent read = defaulted rest key absent read := by
  rw [defaulted, defaulted, field_cons_of_ne value h]

@[simp] theorem defaulted_cons_self (value : Json) (h : key ∉ rest.map Prod.fst) :
    defaulted ((key, value) :: rest) key absent read = read value := by
  rw [defaulted, field_cons_self value h]

end Members

/-- A record that says its kind first is read as of this kind. -/
theorem tagged?_obj (style : TagStyle) {key tail kind : String} {fields : List String}
    {kinds : List (String × List String)} {rest : List (String × Json)}
    (hkind : kinds.find? (fun entry => entry.1 == kind) = some (kind, fields))
    (hrest : key ∉ rest.map Prod.fst) :
    tagged? style key tail kinds (.obj ((key, .str kind) :: rest)) =
      some (kind, (key, .str kind) :: rest) := by
  rw [tagged?, required_cons_self _ hrest, kind?, hkind]
  rfl

/-- A list is read back when its items are. -/
theorem list?_ofList {items : List α} (h : ∀ item ∈ items, read (write item) = some item) :
    list? read (ofList write items) = some items := by
  induction items with
  | nil => rfl
  | cons item rest ih =>
    have hrest := ih (fun a ha => h a (List.mem_cons_of_mem _ ha))
    simp only [list?, ofList] at hrest
    simp [list?, ofList, h item List.mem_cons_self, hrest]

/-- A value that may be absent is read back when no value is written as
`null`. -/
theorem nullable_ofOption {value? : Option α} (hnull : ∀ value, write value ≠ .null)
    (h : ∀ value ∈ value?, read (write value) = some value) :
    nullable read (ofOption write value?) = some value? := by
  cases value? with
  | none => rfl
  | some value =>
    have hread : nullable read (write value) = (read (write value)).map some := by
      unfold nullable
      split
      · exact absurd ‹_› (hnull value)
      · rfl
    simp [ofOption, hread, h value rfl]

end Json

/-! ## §2 Leaves -/

/-- A position that fits is read back. -/
theorem position?_ofNat {id : Nat} (h : id < positionBound) : position? (ofNat id) = some id := by
  simp [position?, natBelow?, ofNat, h]

theorem list?_positions {ids : List Nat} (h : ∀ id ∈ ids, id < positionBound) :
    list? position? (ofList ofNat ids) = some ids :=
  list?_ofList (fun id hid => position?_ofNat (h id hid))

theorem nullable_position (id? : Option Nat) (h : ∀ id ∈ id?, id < positionBound) :
    nullable position? (ofOption ofNat id?) = some id? :=
  nullable_ofOption (fun _ => nofun) (fun id hid => position?_ofNat (h id hid))

@[simp] theorem QualifiedName.ofJson?_toJson (n : QualifiedName) :
    QualifiedName.ofJson? n.toJson = some n := by
  have hsegments : list? str? (ofList .str n.segments) = some n.segments :=
    list?_ofList (fun _ _ => rfl)
  simp [QualifiedName.ofJson?, QualifiedName.toJson, hsegments]

@[simp] theorem Span.ofJson?_toJson (s : Span) : Span.ofJson? s.toJson = some s := by
  have hstart : s.start.toNat < UInt64.size := s.start.toNat_lt
  have hstop : s.stop.toNat < UInt64.size := s.stop.toNat_lt
  simp [Span.toJson, Span.ofJson?, record?, ofNat, natBelow?, hstart, hstop]

@[simp] theorem Modifiers.ofJson?_toJson (m : Modifiers) :
    Modifiers.ofJson? m.toJson = some m := by
  have hbits : m.bits.toNat < UInt16.size := m.bits.toNat_lt
  simp [Modifiers.toJson, Modifiers.ofJson?, ofNat, natBelow?, hbits]

@[simp] theorem TypeRef.ofJson?_toJson (r : TypeRef) : TypeRef.ofJson? r.toJson = some r := by
  simp [TypeRef.toJson, TypeRef.ofJson?, record?, rangeOf?]

/-- A written type is read back by every reader that takes the name of a
primitive type from a text. -/
theorem TypeSyntax.ofJsonBy?_toJson {name? : Json → Option String}
    (hname : ∀ text, name? (.str text) = some text) (t : TypeSyntax) :
    TypeSyntax.ofJsonBy? name? t.toJson = some t := by
  induction t with
  | primitive type =>
    simp [TypeSyntax.toJson, TypeSyntax.ofJsonBy?, hname, Primitive.ofKeyword?_keyword]
  | named type => simp [TypeSyntax.toJson, TypeSyntax.ofJsonBy?]
  | array element ih => simp [TypeSyntax.toJson, TypeSyntax.ofJsonBy?, ih]

@[simp] theorem TypeSyntax.ofJson?_toJson (t : TypeSyntax) :
    TypeSyntax.ofJson? t.toJson = some t :=
  ofJsonBy?_toJson (fun _ => rfl) t

@[simp] theorem TypeSyntax.inBody?_toJson (t : TypeSyntax) :
    TypeSyntax.inBody? t.toJson = some t :=
  ofJsonBy?_toJson (fun _ => rfl) t

/-- A written type is never `null`, which stands for an absent one. -/
theorem TypeSyntax.toJson_ne_null (t : TypeSyntax) : t.toJson ≠ .null := by
  cases t <;> nofun

@[simp] theorem int32?_toInt (value : Int32) : int32? (.int value.toInt) = some value := by
  have hmin : Int32.minValue.toInt ≤ value.toInt := value.minValue_le_toInt
  have hmax : value.toInt ≤ Int32.maxValue.toInt := value.toInt_le
  simp only [int32?, Json.int?]
  rw [if_pos ⟨hmin, hmax⟩, Int32.ofInt_toInt]

/-- A literal is read back; none but the null literal is the text `null`. -/
@[simp] theorem Literal.ofJson?_toJson (l : Literal) : Literal.ofJson? l.toJson = some l := by
  cases l with
  | int | bool | char | string =>
    simp [Literal.toJson, Literal.ofJson?, emptyVariant?, unitVariant?, variant?, bool?, char?,
      str?]
  | null => simp [Literal.toJson, Literal.ofJson?, emptyVariant?, unitVariant?]

@[simp] theorem TypeKind.ofKey?_key (kind : TypeKind) : ofKey? kind.key = some kind := by
  cases kind <;> decide

@[simp] theorem BinaryOp.ofKey?_key (op : BinaryOp) : ofKey? op.key = some op := by
  cases op <;> decide

@[simp] theorem UnaryOp.ofKey?_key (op : UnaryOp) : ofKey? op.key = some op := by
  cases op <;> decide

@[simp] theorem IncDecOp.ofKey?_key (op : IncDecOp) : ofKey? op.key = some op := by
  cases op <;> decide

@[simp] theorem ConstructorCallKind.ofKey?_key (call : ConstructorCallKind) :
    ofKey? call.key = some call := by
  cases call <;> decide

/-! ## §3 Expressions and statements -/

/-- An expression is read by its kind, and comes back when its operands stand at positions
that fit. -/
theorem ExprForm.ofMembers?_toJsonMembers (style : TagStyle) {form : ExprForm} (range : Span)
    (h : ∀ id ∈ form.children, id < positionBound) :
    ∃ kind members, tagged? style "kind" "range" ExprForm.kinds
        (ExprNode.toJson ⟨form, range⟩) = some (kind, members) ∧
      ExprForm.ofMembers? kind members = some form ∧ rangeOf? members = some range := by
  cases form with
  | methodCall receiver name args =>
    refine ⟨_, _, tagged?_obj style rfl (by simp), ?_⟩
    have hreceiver := nullable_position receiver
      (fun id hid => h id (List.mem_append_left _ (Option.mem_toList.mpr hid)))
    have hargs := list?_positions (fun id hid => h id (List.mem_append_right _ hid))
    simp [ExprForm.ofMembers?, Json.optional, rangeOf?, str?, hreceiver, hargs]
  | create type args =>
    refine ⟨_, _, tagged?_obj style rfl (by simp), ?_⟩
    have hargs : list? position? (ofList ofNat args) = some args := list?_positions h
    simp [ExprForm.ofMembers?, rangeOf?, hargs]
  | createArray element dims =>
    refine ⟨_, _, tagged?_obj style rfl (by simp), ?_⟩
    have hdims : list? position? (ofList ofNat dims) = some dims := list?_positions h
    simp [ExprForm.ofMembers?, rangeOf?, hdims]
  | _ =>
    refine ⟨_, _, tagged?_obj style rfl (by simp), ?_⟩
    simp only [ExprForm.children, List.forall_mem_cons] at h
    simp [ExprForm.ofMembers?, rangeOf?, choice?, emptyVariant?, unitVariant?, str?,
      position?_ofNat, h]

theorem ExprNode.ofJson?_toJson (style : TagStyle) {node : ExprNode}
    (h : ∀ id ∈ node.form.children, id < positionBound) :
    ExprNode.ofJson? style node.toJson = some node := by
  obtain ⟨form, range⟩ := node
  obtain ⟨kind, members, htag, hform, hrange⟩ := form.ofMembers?_toJsonMembers style range h
  simp [ExprNode.ofJson?, htag, hform, hrange]

/-- A statement is read by its kind, and comes back when its parts stand at positions that
fit. -/
theorem StmtForm.ofMembers?_toJsonMembers (style : TagStyle) {form : StmtForm} (range : Span)
    (h : ∀ id ∈ form.stmtChildren ++ form.exprChildren, id < positionBound) :
    ∃ kind members, tagged? style "kind" "range" StmtForm.kinds
        (StmtNode.toJson ⟨form, range⟩) = some (kind, members) ∧
      StmtForm.ofMembers? kind members = some form ∧ rangeOf? members = some range := by
  have hstmts := fun id hid => h id (List.mem_append_left _ hid)
  have hexprs := fun id hid => h id (List.mem_append_right _ hid)
  cases form with
  | block stmts =>
    refine ⟨_, _, tagged?_obj style rfl (by simp), ?_⟩
    have hread : list? position? (ofList ofNat stmts) = some stmts := list?_positions hstmts
    simp [StmtForm.ofMembers?, rangeOf?, hread]
  | localVar type name initializer =>
    refine ⟨_, _, tagged?_obj style rfl (by simp), ?_⟩
    have hread := nullable_position initializer
      (fun id hid => hexprs id (Option.mem_toList.mpr hid))
    simp [StmtForm.ofMembers?, Json.optional, rangeOf?, str?, hread]
  | branch condition thenBranch elseBranch =>
    refine ⟨_, _, tagged?_obj style rfl (by simp), ?_⟩
    have hcondition := position?_ofNat (hexprs condition List.mem_cons_self)
    have hthen := position?_ofNat (hstmts thenBranch List.mem_cons_self)
    have helse := nullable_position elseBranch
      (fun id hid => hstmts id (List.mem_cons_of_mem _ (Option.mem_toList.mpr hid)))
    simp [StmtForm.ofMembers?, Json.optional, rangeOf?, hcondition, hthen, helse]
  | forLoop init condition update body =>
    refine ⟨_, _, tagged?_obj style rfl (by simp), ?_⟩
    have hinit := nullable_position init
      (fun id hid => hstmts id (List.mem_append_left _ (Option.mem_toList.mpr hid)))
    have hcondition := nullable_position condition
      (fun id hid => hexprs id (List.mem_append_left _ (Option.mem_toList.mpr hid)))
    have hupdate := nullable_position update
      (fun id hid => hexprs id (List.mem_append_right _ (Option.mem_toList.mpr hid)))
    have hbody := position?_ofNat (hstmts body (List.mem_append_right _ List.mem_cons_self))
    simp [StmtForm.ofMembers?, Json.optional, rangeOf?, hinit, hcondition, hupdate, hbody]
  | returnValue value =>
    refine ⟨_, _, tagged?_obj style rfl (by simp), ?_⟩
    have hread := nullable_position value
      (fun id hid => hexprs id (Option.mem_toList.mpr hid))
    simp [StmtForm.ofMembers?, Json.optional, rangeOf?, hread]
  | constructorCall call args =>
    refine ⟨_, _, tagged?_obj style rfl (by simp), ?_⟩
    have hread : list? position? (ofList ofNat args) = some args := list?_positions hexprs
    simp [StmtForm.ofMembers?, rangeOf?, choice?, emptyVariant?, unitVariant?, hread]
  | _ =>
    refine ⟨_, _, tagged?_obj style rfl (by simp), ?_⟩
    simp [StmtForm.stmtChildren, StmtForm.exprChildren] at h
    simp [StmtForm.ofMembers?, rangeOf?, position?_ofNat, h]

theorem StmtNode.ofJson?_toJson (style : TagStyle) {node : StmtNode}
    (h : ∀ id ∈ node.form.stmtChildren ++ node.form.exprChildren, id < positionBound) :
    StmtNode.ofJson? style node.toJson = some node := by
  obtain ⟨form, range⟩ := node
  obtain ⟨kind, members, htag, hform, hrange⟩ := form.ofMembers?_toJsonMembers style range h
  simp [StmtNode.ofJson?, htag, hform, hrange]

/-! ## §4 Declarations -/

/-- Every position in an arena. -/
def BodyArena.positions (a : BodyArena) : List Nat :=
  a.stmts.toList.flatMap (fun node => node.form.stmtChildren ++ node.form.exprChildren) ++
    a.exprs.toList.flatMap (fun node => node.form.children)

/-- Every position in a type declaration: those in its arena and the roots of
its bodies. -/
def TypeDecl.positions (d : TypeDecl) : List Nat :=
  d.bodies.positions ++ (d.stmtRoots ++ d.exprRoots)

/-- Every position in the unit fits. -/
def CompilationUnit.Addressable (u : CompilationUnit) : Prop :=
  ∀ position ∈ u.decl.positions, position < positionBound

instance (u : CompilationUnit) : Decidable u.Addressable :=
  inferInstanceAs (Decidable (∀ position ∈ u.decl.positions, position < positionBound))

/-- Every position in every unit fits. -/
def Program.Addressable (p : Program) : Prop := ∀ unit ∈ p.units, unit.Addressable

theorem BodyArena.ofJson?_toJson (style : TagStyle) {a : BodyArena}
    (h : ∀ position ∈ a.positions, position < positionBound) :
    BodyArena.ofJson? style a.toJson = some a := by
  have hstmts : list? (StmtNode.ofJson? style) (ofList StmtNode.toJson a.stmts.toList) =
      some a.stmts.toList := by
    refine list?_ofList (fun node hnode => StmtNode.ofJson?_toJson style (fun id hid => h id ?_))
    exact List.mem_append_left _ (List.mem_flatMap.mpr ⟨node, hnode, hid⟩)
  have hexprs : list? (ExprNode.ofJson? style) (ofList ExprNode.toJson a.exprs.toList) =
      some a.exprs.toList := by
    refine list?_ofList (fun node hnode => ExprNode.ofJson?_toJson style (fun id hid => h id ?_))
    exact List.mem_append_right _ (List.mem_flatMap.mpr ⟨node, hnode, hid⟩)
  simp [BodyArena.ofJson?, BodyArena.toJson, record?, hstmts, hexprs]

@[simp] theorem Param.ofJson?_toJson (p : Param) : Param.ofJson? p.toJson = some p := by
  simp [Param.ofJson?, Param.toJson, record?, rangeOf?, str?]

@[simp] theorem list?_params (params : List Param) :
    list? Param.ofJson? (ofList Param.toJson params) = some params :=
  list?_ofList (fun p _ => p.ofJson?_toJson)

@[simp] theorem list?_typeRefs (refs : List TypeRef) :
    list? TypeRef.ofJson? (ofList TypeRef.toJson refs) = some refs :=
  list?_ofList (fun r _ => r.ofJson?_toJson)

theorem FieldDecl.ofJson?_toJson {f : FieldDecl}
    (h : ∀ root ∈ f.initializer, root < positionBound) :
    FieldDecl.ofJson? f.toJson = some f := by
  simp [FieldDecl.ofJson?, FieldDecl.toJson, record?, Json.optional,
    modifiersOf?, rangeOf?, str?, nullable_position _ h]

theorem MethodDecl.ofJson?_toJson {m : MethodDecl} (h : ∀ root ∈ m.body, root < positionBound) :
    MethodDecl.ofJson? m.toJson = some m := by
  have hreturn : nullable TypeSyntax.ofJson? (ofOption TypeSyntax.toJson m.returnType) =
      some m.returnType :=
    nullable_ofOption TypeSyntax.toJson_ne_null (fun t _ => t.ofJson?_toJson)
  simp [MethodDecl.ofJson?, MethodDecl.toJson, record?, Json.optional,
    modifiersOf?, rangeOf?, str?, nullable_position _ h, hreturn]

theorem ConstructorDecl.ofJson?_toJson {c : ConstructorDecl} (h : c.body < positionBound) :
    ConstructorDecl.ofJson? c.toJson = some c := by
  simp [ConstructorDecl.ofJson?, ConstructorDecl.toJson, record?,
    modifiersOf?, rangeOf?, position?_ofNat h]

theorem TypeDecl.ofJson?_toJson (style : TagStyle) {d : TypeDecl}
    (h : ∀ position ∈ d.positions, position < positionBound) :
    TypeDecl.ofJson? style d.toJson = some d := by
  have hbodies := BodyArena.ofJson?_toJson style (a := d.bodies)
    (fun id hid => h id (List.mem_append_left _ hid))
  have hstmt : ∀ root ∈ d.stmtRoots, root < positionBound := fun root hroot =>
    h root (List.mem_append_right _ (List.mem_append_left _ hroot))
  have hexpr : ∀ root ∈ d.exprRoots, root < positionBound := fun root hroot =>
    h root (List.mem_append_right _ (List.mem_append_right _ hroot))
  have hfields : list? FieldDecl.ofJson? (ofList FieldDecl.toJson d.fields) = some d.fields := by
    refine list?_ofList (fun f hf => FieldDecl.ofJson?_toJson (fun root hroot => hexpr root ?_))
    exact List.mem_filterMap.mpr ⟨f, hf, hroot⟩
  have hconstructors : list? ConstructorDecl.ofJson?
      (ofList ConstructorDecl.toJson d.constructors) = some d.constructors := by
    refine list?_ofList (fun c hc => ConstructorDecl.ofJson?_toJson (hstmt c.body ?_))
    exact List.mem_append_left _ (List.mem_map_of_mem hc)
  have hmethods : list? MethodDecl.ofJson? (ofList MethodDecl.toJson d.methods) =
      some d.methods := by
    refine list?_ofList (fun m hm => MethodDecl.ofJson?_toJson (fun root hroot => hstmt root ?_))
    exact List.mem_append_right _ (List.mem_filterMap.mpr ⟨m, hm, hroot⟩)
  have hsuperclass : nullable TypeRef.ofJson? (ofOption TypeRef.toJson d.superclass) =
      some d.superclass :=
    nullable_ofOption (fun _ => nofun) (fun r _ => r.ofJson?_toJson)
  simp [TypeDecl.ofJson?, TypeDecl.toJson, record?, Json.optional,
    modifiersOf?, rangeOf?, str?, unitVariant?, hbodies, hfields, hconstructors, hmethods,
    hsuperclass]

@[simp] theorem ImportDecl.ofJson?_toJson (style : TagStyle) (i : ImportDecl) :
    ImportDecl.ofJson? style i.toJson = some i := by
  cases i <;>
    simp [ImportDecl.ofJson?, ImportDecl.toJson, tagged?, kind?, ImportDecl.kinds,
      rangeOf?]

/-- A unit is read back. -/
theorem CompilationUnit.ofJson?_toJson (style : TagStyle) {u : CompilationUnit}
    (h : u.Addressable) : CompilationUnit.ofJson? style u.toJson = some u := by
  have hdecl := TypeDecl.ofJson?_toJson style h
  have hfile : nullable str? (ofOption .str u.file) = some u.file :=
    nullable_ofOption (fun _ => nofun) (fun _ _ => rfl)
  have hpackage : nullable QualifiedName.ofJson? (ofOption QualifiedName.toJson u.package) =
      some u.package :=
    nullable_ofOption (fun _ => nofun) (fun n _ => n.ofJson?_toJson)
  have himports : list? (ImportDecl.ofJson? style) (ofList ImportDecl.toJson u.imports) =
      some u.imports :=
    list?_ofList (fun i _ => i.ofJson?_toJson style)
  simp [CompilationUnit.ofJson?, CompilationUnit.toJson, record?, Json.optional,
    hdecl, hfile, hpackage, himports]

/-- A program is read back. -/
theorem Program.ofJson?_toJson (style : TagStyle) {p : Program} (h : p.Addressable) :
    Program.ofJson? style p.toJson = some p := by
  have hunits : list? (CompilationUnit.ofJson? style) (ofList CompilationUnit.toJson p.units) =
      some p.units :=
    list?_ofList (fun u hu => CompilationUnit.ofJson?_toJson style (h u hu))
  simp [Program.ofJson?, Program.toJson, record?, hunits]

/-! ## §5 Input files -/

/-- A unit has no field `units`, which every program has. -/
theorem Program.ofJson?_unit (style : TagStyle) (u : CompilationUnit) :
    Program.ofJson? style u.toJson = none := by
  simp [Program.ofJson?, CompilationUnit.toJson, record?]

/-- Decoding is a left inverse of encoding, for units and for programs, in
both tag styles and for the two forms of an input file. -/
theorem decode_encode (style : TagStyle) :
    (∀ unit : CompilationUnit, unit.Addressable →
      CompilationUnit.ofJson? style unit.toJson = some unit ∧
        InputFile.ofJson? unit.toJson = some (.single unit)) ∧
    ∀ program : Program, program.Addressable →
      Program.ofJson? style program.toJson = some program ∧
        InputFile.ofJson? program.toJson = some (.whole program) := by
  refine ⟨fun unit hunit => ⟨CompilationUnit.ofJson?_toJson style hunit, ?_⟩,
    fun program hprogram => ⟨Program.ofJson?_toJson style hprogram, ?_⟩⟩
  · simp [InputFile.ofJson?, Program.ofJson?_unit, CompilationUnit.ofJson?_toJson .numbered hunit]
  · simp [InputFile.ofJson?, Program.ofJson?_toJson .numbered hprogram]

/-- A class with a field, a parameter and a body. -/
def gauge : CompilationUnit where
  package := some (.ofDotted "lab.tools")
  imports := [.onDemand (.ofDotted "java.util") ⟨0, 12⟩]
  decl := TypeBlueprint.toDecl {
    kind := .classType, name := "Gauge"
    fields := [{ type := .array (.primitive .int), name := "marks" }]
    methods := [{ name := "at", returnType := some (.primitive .int)
                  params := [(.primitive .int, "place")]
                  body := some [.returnValue () (some (.arrayAccess ()
                    (.named () (.single "marks")) (.named () (.single "place"))))] }] }

/-- The class is addressable, and so is the program that it forms alone: both come back
from their encodings. -/
theorem decode_encode_gauge :
    gauge.Addressable ∧ InputFile.ofJson? gauge.toJson = some (.single gauge) ∧
      InputFile.ofJson? (Program.toJson ⟨[gauge]⟩) = some (.whole ⟨[gauge]⟩) := by
  have hgauge : gauge.Addressable := by decide +kernel
  have hprogram : Program.Addressable ⟨[gauge]⟩ := fun unit hunit =>
    List.mem_singleton.mp hunit ▸ hgauge
  exact ⟨hgauge, ((decode_encode .numbered).1 gauge hgauge).2,
    ((decode_encode .numbered).2 _ hprogram).2⟩

end JoosStatics
