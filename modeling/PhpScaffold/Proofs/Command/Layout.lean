import PhpScaffold.Proofs.Command.Operation
import PhpScaffold.Proofs.Print.Mention

namespace PhpScaffold

open Name

theorem distinct_of_nodup {names : List String} (h : names.Nodup) : distinct names = names := by
  have grown (before after : List String) (h : (before ++ after).Nodup) :
      after.foldl addName before = before ++ after := by
    induction after generalizing before with
    | nil => rw [List.append_nil]; rfl
    | cons n r ih =>
      have new : n ∉ before := fun there => List.disjoint_of_nodup_append h there List.mem_cons_self
      rw [List.foldl_cons, addName, if_neg new, ih _ (by simpa using h), List.append_assoc, List.singleton_append]
  exact grown [] names h

namespace Element

variable {e : Element}

theorem typeMentions_of_isWhole {n : String} (h : IsWhole n.toList) (nullable : Value) :
    typeMentions (.text n, nullable) = [n] := by
  have plain : '<' ∉ (Text.trim Text.isBlank n).toList := by
    obtain ⟨front, back, whole, -, -⟩ := Text.exists_trimBoth Text.isBlank n.toList
    rw [Text.trim, String.toList_ofList]
    intro inside
    refine h.not_mem (c := '<') ⟨rfl, by decide⟩ ?_
    rw [whole]
    simp [inside]
  simp only [typeMentions, Value.text?, Option.map_some, Option.getD_some]
  rw [Print.typeNames, if_neg plain, names_trim fun c => isGap_of_isBlank, names_of_isWhole h]

end Element

theorem Name.EndsIn.last_eq {n x : String} (h : EndsIn n x) : Name.last n = x := by
  obtain ⟨scope, -, -, cut⟩ := h.splitLast
  rw [Name.last, cut]

def Name.Inside (n : String) : Prop := "App\\".toList <+: n.toList

instance (n : String) : Decidable (Name.Inside n) := inferInstanceAs (Decidable (_ <+: _))

namespace Command

/-- What a piece is called and what it refers to, each name with its end.  All of them end differently. -/
structure Piece.Refers (p : Piece) (x : String) (names : List (String × String)) : Prop where
  kept : Blueprint.Keeps p.kind p.shape
  texts : ∀ name, ∀ v ∈ (p.shape (.bare p.kind name)).references, v = .null ∨ ∃ s, v = .text s
  references : ∀ name, ((p.shape (.bare p.kind name)).references.filterMap Value.text?).flatMap qualifiedNames =
    names.map Prod.fst
  mentions : ∀ name, ∀ n ∈ (p.shape (.bare p.kind name)).mentions, Inside n → n ∈ names.map Prod.fst
  own : EndsIn p.name x
  full : ∀ n ∈ names, EndsIn n.1 n.2
  apart : (x :: names.map Prod.snd).Nodup

namespace Piece.Refers

variable {p : Piece} {x : String} {names : List (String × String)} {strictTypes : Bool} {a : Artifact}

theorem fine (h : p.Refers x names) : p.Fine :=
  ⟨⟨_, Element.harvest_of_texts (h.texts _)⟩, h.kept⟩

theorem map_last (h : p.Refers x names) : (names.map Prod.fst).map Name.last = names.map Prod.snd := by
  rw [List.map_map]
  exact List.map_congr_left fun n hn => (h.full n hn).last_eq

theorem ne_own (h : p.Refers x names) : ∀ n ∈ names.map Prod.fst, n ≠ p.name := by
  intro n hn same
  have ends := List.mem_map_of_mem (f := Name.last) hn
  rw [h.map_last, same, h.own.last_eq] at ends
  exact (List.nodup_cons.1 h.apart).1 ends

theorem entries_eq (h : p.Refers x names) {uses : Table String}
    (used : Blueprint.Uses p.name (p.shape (Blueprint.probe p.kind)) uses) : uses.entries = names := by
  have distinct : (names.map Prod.fst).Nodup := by
    refine .of_map Name.last ?_
    rw [h.map_last]
    exact (List.nodup_cons.1 h.apart).2
  have keys : uses.keys = names.map Prod.fst := by
    have found : (p.shape (Blueprint.probe p.kind)).dependencies = names.map Prod.fst := by
      rw [Element.dependencies, Blueprint.probe, h.references, distinct_of_nodup distinct]
    rw [used.keys, found, List.filter_eq_self]
    intro n hn
    rw [h.own.bare, decide_eq_true_eq]
    exact h.ne_own n hn
  have last := used.last (by rw [keys, h.map_last, h.own.short]; exact h.apart)
  have whole : uses.entries = uses.keys.map fun k => (k, Name.last k) := by
    rw [Table.keys, List.map_map]
    refine (List.map_id _).symm.trans (List.map_congr_left fun u hu => ?_)
    rw [Function.comp_apply, ← last u hu]
    rfl
  rw [whole, keys, List.map_map]
  refine (List.map_congr_left fun n hn => ?_).trans (List.map_id _)
  rw [Function.comp_apply, (h.full n hn).last_eq]
  rfl

end Piece.Refers

/-- One way to lay out an operation: what its handler takes and returns, and the classes that carry this. -/
structure Layout where
  operation : Operation
  takes : Option (String × String)
  returns : String
  comment : String
  carriers : List (String × Method)
  body : String
  field : String
  success : String × String

namespace Layout

variable {l : Layout} {name : Value}

def handle (l : Layout) (comment : String) (body : Value) : Method := handleMethod l.takes l.returns comment body

def interfacePiece (l : Layout) : Piece :=
  ⟨.interface, l.operation.handlerInterface, interfaceShape l.operation (l.handle l.comment .null)⟩

def carrierPiece (l : Layout) (c : String × Method) : Piece := ⟨.cls, l.operation.contract c.1, carrierShape c.2⟩

def implementationPiece (l : Layout) : Piece :=
  ⟨.cls, l.operation.implementation, implementationShape l.operation (l.handle "@inheritdoc" l.body)⟩

def testPiece (l : Layout) : Piece :=
  ⟨.cls, l.operation.test, testShape l.operation l.field l.success.1 l.success.2⟩

def pieces (l : Layout) : List Piece :=
  l.interfacePiece :: l.carriers.map l.carrierPiece ++ [l.implementationPiece, l.testPiece]

def types (l : Layout) : List String := l.takes.toList.map Prod.snd ++ [l.returns]

def carried (l : Layout) : List (String × String) :=
  l.carriers.map fun c => (l.operation.contract c.1, l.operation.subject ++ c.1)

def builtIn : List String := ["int", "mixed", "void"]

theorem builtIn_plain : ∀ t ∈ builtIn, IsIdentifier t.toList ∧ ¬ Inside t := by
  decide

theorem qualifiedNames_builtIn {t : String} (h : t ∈ builtIn) : qualifiedNames t = [] := by
  have single := (builtIn_plain t h).1
  rw [qualifiedNames, names_of_isWhole single.isWhole,
    List.filter_cons_of_neg (by simp [single.isSegment.isQualified_eq_false])]
  rfl

theorem not_inside_builtIn {t : String} (h : t ∈ builtIn) :
    ∀ n ∈ Element.typeMentions (.text t, false), ¬ Inside n := by
  obtain ⟨single, outside⟩ := builtIn_plain t h
  rw [Element.typeMentions_of_isWhole single.isWhole]
  exact List.forall_mem_singleton.2 outside

def Carries (m : Method) : Prop :=
  ∃ field type remark comment body, type ∈ builtIn ∧ m = constructor (promoted field type .pub remark) comment body

/-- What the handler takes and returns is carried or built in. -/
structure Sound (l : Layout) : Prop where
  named : l.operation.Named
  carriers : (l.carriers.map Prod.fst).Sublist [l.operation.side.word, "Result"]
  carries : ∀ c ∈ l.carriers, Carries c.2
  types : ∃ others, l.types = l.carried.map Prod.fst ++ others ∧ ∀ t ∈ others, t ∈ builtIn
  success : l.success.1 ∉ ["setUp", "testHandleWithInvalidData"]

section

variable (l) (comment : String) (body : Value)

theorem references_handle : (l.handle comment body).references = l.types.map .text := by
  obtain ⟨-, takes, -⟩ := l
  cases takes <;> rfl

theorem texts_handle : ∀ v ∈ (l.handle comment body).references, v = .null ∨ ∃ s, v = .text s := by
  rw [references_handle]
  exact List.forall_mem_map.2 fun t _ => .inr ⟨t, rfl⟩

theorem types_handle : (l.handle comment body).types = l.types.map fun t => (.text t, .bool false) := by
  obtain ⟨-, takes, -⟩ := l
  cases takes <;> rfl

theorem classNames_handle : (l.handle comment body).attributed.flatMap Annotations.classNames = [] := by
  obtain ⟨-, takes, -⟩ := l
  cases takes <;> rfl

end

theorem Sound.contract (h : l.Sound) {c : String × Method} (hc : c ∈ l.carriers) :
    EndsIn (l.operation.contract c.1) (l.operation.subject ++ c.1) := by
  have known : [l.operation.side.word, "Result"].Sublist l.operation.side.suffixes :=
    (List.sublist_append_left [_, _] [_, _]).cons _
  exact h.named.contract (known.subset (h.carriers.subset (List.mem_map_of_mem hc)))

theorem Sound.full_carried (h : l.Sound) : ∀ n ∈ l.carried, EndsIn n.1 n.2 :=
  List.forall_mem_map.2 fun _ hc => h.contract hc

theorem Sound.references_handle (h : l.Sound) (comment : String) (body : Value) :
    ((l.handle comment body).references.filterMap Value.text?).flatMap qualifiedNames = l.carried.map Prod.fst := by
  obtain ⟨others, types, known⟩ := h.types
  have texts : (l.types.map Value.text).filterMap Value.text? = l.types := by
    rw [List.filterMap_map]
    exact List.filterMap_some
  have carried : (l.carried.map Prod.fst).flatMap qualifiedNames = l.carried.map Prod.fst := by
    rw [List.flatMap_map, List.flatMap_congr fun n hn => (h.full_carried n hn).qualifiedNames, List.map_eq_flatMap]
  have builtIn : others.flatMap qualifiedNames = [] :=
    List.flatMap_eq_nil_iff.2 fun t ht => qualifiedNames_builtIn (known t ht)
  rw [Layout.references_handle, texts, types, List.flatMap_append, carried, builtIn, List.append_nil]

theorem Sound.mentions_handle (h : l.Sound) (comment : String) (body : Value) :
    ∀ n ∈ (l.handle comment body).types.flatMap Element.typeMentions, Inside n → n ∈ l.carried.map Prod.fst := by
  obtain ⟨others, types, known⟩ := h.types
  rw [types_handle, List.flatMap_map, types]
  intro n hn inside
  obtain ⟨t, ht, mem⟩ := List.mem_flatMap.1 hn
  obtain carried | other := List.mem_append.1 ht
  · obtain ⟨m, hm, rfl⟩ := List.mem_map.1 carried
    rw [Element.typeMentions_of_isWhole (h.full_carried m hm).isWhole, List.mem_singleton] at mem
    exact mem ▸ carried
  · exact absurd inside (not_inside_builtIn (known t other) n mem)

section

variable (o : Operation) (m : Method)

theorem references_interfaceShape : (interfaceShape o m (.bare .interface name)).references =
    m.references ++ [.text bindAttribute, .text o.implementation] := by
  show ([] ++ [] ++ [] ++ (m.references ++ []) ++ [] ++ _ : List Value) = _
  simp
  rfl

theorem classNames_interfaceShape : (interfaceShape o m (.bare .interface name)).classNames =
    [bindAttribute, o.implementation] ++ m.attributed.flatMap Annotations.classNames := by
  show [] ++ ([bindAttribute, o.implementation] ++ (m.attributed ++ []).flatMap _) = _
  simp

theorem types_interfaceShape : (interfaceShape o m (.bare .interface name)).types = m.types := by
  show [] ++ (m.types ++ []) = _
  simp

def connected : Method := constructor (promoted "connection" connectionInterface .priv .null) .null .null

theorem methods_implementationShape (handles : m.name = .text "handle") :
    (implementationShape o m (.bare .cls name)).methods =
      ⟨[(.text "__construct", connected), (.text "handle", m)]⟩ := by
  have made : (implementationShape o m (.bare .cls name)).methods =
      (Roster.insert {} (.text "__construct") connected).insert m.name m := rfl
  rw [made, handles]
  simp [Roster.insert, Value.insertEntry]

theorem references_implementationShape (handles : m.name = .text "handle") :
    (implementationShape o m (.bare .cls name)).references =
      [.text o.handlerInterface, .text connectionInterface, .null] ++ m.references := by
  show [] ++ [.text o.handlerInterface] ++ [] ++
    (implementationShape o m (.bare .cls name)).methods.values.flatMap Method.references ++ [] ++ [] = _
  rw [methods_implementationShape o m handles]
  show [] ++ [_] ++ [] ++ ([.text connectionInterface, .null] ++ (m.references ++ [])) ++ [] ++ [] = _
  simp only [List.append_nil, List.nil_append, List.cons_append]

theorem classNames_implementationShape (handles : m.name = .text "handle") :
    (implementationShape o m (.bare .cls name)).classNames =
      o.handlerInterface :: m.attributed.flatMap Annotations.classNames := by
  show [o.handlerInterface] ++ ({} ::
    (implementationShape o m (.bare .cls name)).methods.values.flatMap Method.attributed).flatMap _ = _
  rw [methods_implementationShape o m handles]
  show [o.handlerInterface] ++ (m.attributed ++ []).flatMap _ = _
  rw [List.append_nil, List.singleton_append]

theorem types_implementationShape (handles : m.name = .text "handle") :
    (implementationShape o m (.bare .cls name)).types =
      [(.text connectionInterface, .bool false), (.null, .bool false)] ++ m.types := by
  show [] ++ (implementationShape o m (.bare .cls name)).methods.values.flatMap Method.types = _
  rw [methods_implementationShape o m handles]
  show [] ++ ([(.text connectionInterface, .bool false), (.null, .bool false)] ++ (m.types ++ [])) = _
  rw [List.nil_append, List.append_nil]

end

section

variable (o : Operation) (field : String) (success : String × String)

def setUp : Method :=
  voidMethod "setUp" ("parent::setUp();\n\n$this->" ++ field ++ " = $this->app->make(" ++ Name.last o.implementation ++
    "::class);")

def testMethods : List Method :=
  [setUp o field, voidMethod success.1 success.2,
    voidMethod "testHandleWithInvalidData" "// TODO: Implement test for edge cases"]

variable {success} (other : success.1 ∉ ["setUp", "testHandleWithInvalidData"])

include other

theorem methods_testShape : (testShape o field success.1 success.2 (.bare .cls name)).methods =
    ⟨(testMethods o field success).map fun m => (m.name, m)⟩ := by
  obtain ⟨first, last⟩ : success.1 ≠ "setUp" ∧ success.1 ≠ "testHandleWithInvalidData" := by simpa using other
  have made : (testShape o field success.1 success.2 (.bare .cls name)).methods =
      ((Roster.insert {} (.text "setUp") (setUp o field)).insert (.text success.1)
        (voidMethod success.1 success.2)).insert
        (.text "testHandleWithInvalidData")
        (voidMethod "testHandleWithInvalidData" "// TODO: Implement test for edge cases") := rfl
  rw [made]
  simp [Roster.insert, Value.insertEntry, first.symm, last]
  rfl

theorem references_testShape : (testShape o field success.1 success.2 (.bare .cls name)).references =
    [testCase, refreshDatabase, "void", "void", "void", o.implementation].map .text := by
  show [.text testCase] ++ [] ++ [.text refreshDatabase] ++
    (testShape o field success.1 success.2 (.bare .cls name)).methods.values.flatMap Method.references ++
      [.text o.implementation] ++ [] = _
  rw [methods_testShape o field other]
  rfl

theorem classNames_testShape : (testShape o field success.1 success.2 (.bare .cls name)).classNames =
    [testCase, refreshDatabase] := by
  show [testCase, refreshDatabase] ++ ({} :: {} ::
    (testShape o field success.1 success.2 (.bare .cls name)).methods.values.flatMap Method.attributed).flatMap _ = _
  rw [methods_testShape o field other]
  rfl

theorem types_testShape : (testShape o field success.1 success.2 (.bare .cls name)).types =
    [o.implementation, "void", "void", "void"].map fun t => (.text t, .bool false) := by
  show [(.text o.implementation, .bool false)] ++
    (testShape o field success.1 success.2 (.bare .cls name)).methods.values.flatMap Method.types = _
  rw [methods_testShape o field other]
  rfl

end

theorem Sound.inner (h : l.Sound) :
    ((l.operation.side.word ++ "Handler") :: l.carriers.map Prod.fst ++
      [l.operation.side.word ++ "HandlerImplementation"]).Sublist l.operation.side.suffixes :=
  (h.carriers.cons_cons _).append (List.sublist_append_left [_] [_])

theorem Sound.interface (h : l.Sound) :
    l.interfacePiece.Refers (l.operation.subject ++ (l.operation.side.word ++ "Handler"))
      (l.carried ++ [(bindAttribute, "Bind"),
        (l.operation.implementation, l.operation.subject ++ (l.operation.side.word ++ "HandlerImplementation"))]) where
  kept _ := ⟨rfl, rfl⟩
  texts name := by
    rw [interfacePiece, references_interfaceShape, List.forall_mem_append]
    exact ⟨l.texts_handle _ _, by simp⟩
  references name := by
    rw [interfacePiece, references_interfaceShape, List.filterMap_append, List.flatMap_append, h.references_handle]
    show _ ++ (qualifiedNames bindAttribute ++ (qualifiedNames l.operation.implementation ++ [])) = _
    rw [endsIn_bindAttribute.qualifiedNames, h.named.implementation.qualifiedNames, List.map_append]
    rfl
  mentions name := by
    rw [interfacePiece, Element.mentions, classNames_interfaceShape, classNames_handle, types_interfaceShape]
    intro n hn inside
    rw [List.map_append, List.mem_append]
    obtain outer | inner := List.mem_append.1 hn
    · rw [List.append_nil] at outer
      exact .inr outer
    · exact .inl (h.mentions_handle _ _ n inner inside)
  own := h.named.handlerInterface
  full := List.forall_mem_append.2 ⟨h.full_carried, by simpa using ⟨endsIn_bindAttribute, h.named.implementation⟩⟩
  apart := by
    refine Operation.nodup_ends h.inner ["Bind"] (by decide) ?_
    simp only [carried, List.map_append, List.map_cons, List.map_nil, List.map_map, List.cons_append, List.nil_append,
      List.append_assoc]
    exact .cons _ ((List.Perm.swap _ _ []).append_left _)

theorem Sound.implementation (h : l.Sound) :
    l.implementationPiece.Refers (l.operation.subject ++ (l.operation.side.word ++ "HandlerImplementation"))
      ([(l.operation.handlerInterface, l.operation.subject ++ (l.operation.side.word ++ "Handler")),
        (connectionInterface, "ConnectionInterface")] ++ l.carried) where
  kept _ := ⟨rfl, rfl⟩
  texts name := by
    rw [implementationPiece, references_implementationShape _ _ rfl, List.forall_mem_append]
    exact ⟨by simp, l.texts_handle _ _⟩
  references name := by
    rw [implementationPiece, references_implementationShape _ _ rfl, List.filterMap_append, List.flatMap_append,
      h.references_handle]
    show qualifiedNames l.operation.handlerInterface ++ (qualifiedNames connectionInterface ++ []) ++ _ = _
    rw [h.named.handlerInterface.qualifiedNames, endsIn_connectionInterface.qualifiedNames, List.map_append]
    rfl
  mentions name := by
    rw [implementationPiece, Element.mentions, classNames_implementationShape _ _ rfl,
      types_implementationShape _ _ rfl, List.flatMap_append]
    intro n hn inside
    rw [List.map_append, List.mem_append]
    obtain outer | hn := List.mem_append.1 hn
    · rw [classNames_handle] at outer
      exact .inl (List.mem_cons.2 (.inl (List.mem_singleton.1 outer)))
    · obtain outer | inner := List.mem_append.1 hn
      · have only : [(Value.text connectionInterface, Value.bool false), (.null, .bool false)].flatMap
            Element.typeMentions = [connectionInterface] := by
          show Element.typeMentions _ ++ ([] ++ []) = _
          rw [Element.typeMentions_of_isWhole endsIn_connectionInterface.isWhole]
          rfl
        rw [only] at outer
        exact .inl (List.mem_cons_of_mem _ outer)
      · exact .inr (h.mentions_handle _ _ n inner inside)
  own := h.named.implementation
  full := List.forall_mem_append.2
    ⟨by simpa using ⟨h.named.handlerInterface, endsIn_connectionInterface⟩, h.full_carried⟩
  apart := by
    refine Operation.nodup_ends h.inner ["ConnectionInterface"] (by decide) ?_
    simp only [carried, List.map_append, List.map_cons, List.map_nil, List.map_map, List.cons_append, List.nil_append,
      List.append_assoc]
    refine (List.Perm.swap _ _ _).trans (.cons _ ?_)
    exact @List.perm_append_comm _ [_, _] _

theorem Sound.test (h : l.Sound) :
    l.testPiece.Refers (l.operation.subject ++ (l.operation.side.word ++ "HandlerImplementationTest"))
      [(testCase, "TestCase"), (refreshDatabase, "RefreshDatabase"),
        (l.operation.implementation, l.operation.subject ++ (l.operation.side.word ++ "HandlerImplementation"))] where
  kept _ := ⟨rfl, rfl⟩
  texts name := by
    rw [testPiece, references_testShape _ _ h.success]
    exact List.forall_mem_map.2 fun t _ => .inr ⟨t, rfl⟩
  references name := by
    rw [testPiece, references_testShape _ _ h.success]
    have void : qualifiedNames "void" = [] := qualifiedNames_builtIn (by decide)
    show qualifiedNames testCase ++ (qualifiedNames refreshDatabase ++ (qualifiedNames "void" ++
      (qualifiedNames "void" ++ (qualifiedNames "void" ++ (qualifiedNames l.operation.implementation ++ []))))) = _
    rw [endsIn_testCase.qualifiedNames, endsIn_refreshDatabase.qualifiedNames, void,
      h.named.implementation.qualifiedNames]
    rfl
  mentions name := by
    rw [testPiece, Element.mentions, classNames_testShape _ _ h.success, types_testShape _ _ h.success]
    intro n hn inside
    obtain outer | typed := List.mem_append.1 hn
    · exact List.mem_append_left [_] outer
    · rw [List.flatMap_map, List.flatMap_cons, Element.typeMentions_of_isWhole h.named.implementation.isWhole] at typed
      obtain own | void := List.mem_append.1 typed
      · exact List.mem_append_right [_, _] own
      · obtain ⟨t, ht, mem⟩ := List.mem_flatMap.1 void
        have builtIn : t ∈ builtIn := by
          revert ht
          simp +contextual [Layout.builtIn]
        exact absurd inside (not_inside_builtIn builtIn n mem)
  own := h.named.test
  full := by simpa using ⟨endsIn_testCase, endsIn_refreshDatabase, h.named.implementation⟩
  apart := by
    have inner : [l.operation.side.word ++ "HandlerImplementation",
        l.operation.side.word ++ "HandlerImplementationTest"].Sublist l.operation.side.suffixes :=
      List.sublist_append_right [_, _, _] [_, _]
    refine Operation.nodup_ends inner ["TestCase", "RefreshDatabase"] (by decide) ?_
    exact @List.perm_append_comm _ [_, _, _] [_]

section

variable {field type : String} {remark comment body : Value}

theorem references_carrierShape :
    (carrierShape (constructor (promoted field type .pub remark) comment body) (.bare .cls name)).references =
      [.text type, .null] := rfl

theorem mentions_carrierShape :
    (carrierShape (constructor (promoted field type .pub remark) comment body) (.bare .cls name)).mentions =
      Element.typeMentions (.text type, false) := by
  have classNames : (carrierShape (constructor (promoted field type .pub remark) comment body)
      (.bare .cls name)).classNames = [] := rfl
  have types : (carrierShape (constructor (promoted field type .pub remark) comment body) (.bare .cls name)).types =
      [(.text type, .bool false), (.null, .bool false)] := rfl
  rw [Element.mentions, classNames, types, List.nil_append, List.flatMap_cons, List.flatMap_singleton]
  exact List.append_nil _

end

theorem Sound.carrier (h : l.Sound) {c : String × Method} (hc : c ∈ l.carriers) :
    (l.carrierPiece c).Refers (l.operation.subject ++ c.1) [] := by
  obtain ⟨field, type, remark, comment, body, builtIn, construct⟩ := h.carries c hc
  constructor
  case kept => exact fun _ => ⟨rfl, rfl⟩
  case own => exact h.contract hc
  case full => simp
  case apart => simp
  case texts =>
    intro name
    rw [carrierPiece, construct, references_carrierShape]
    simp
  case references =>
    intro name
    rw [carrierPiece, construct, references_carrierShape]
    show qualifiedNames type ++ [] = _
    rw [qualifiedNames_builtIn builtIn]
    rfl
  case mentions =>
    intro name n hn inside
    rw [carrierPiece, construct, mentions_carrierShape] at hn
    exact absurd inside (not_inside_builtIn builtIn n hn)

theorem name_mem {n : String} (h : n ∈ l.carried.map Prod.fst) : n ∈ l.pieces.map Piece.name := by
  rw [carried, List.map_map] at h
  obtain ⟨c, hc, rfl⟩ := List.mem_map.1 h
  exact List.mem_map.2 ⟨l.carrierPiece c, by simp [pieces, List.mem_map_of_mem hc], rfl⟩

theorem Sound.refers (h : l.Sound) : ∀ p ∈ l.pieces, ∃ x names, p.Refers x names ∧
    ∀ n ∈ names.map Prod.fst, Inside n → n ∈ l.pieces.map Piece.name := by
  have interface : l.operation.handlerInterface ∈ l.pieces.map Piece.name := List.mem_cons_self
  have implementation : l.operation.implementation ∈ l.pieces.map Piece.name :=
    List.mem_map_of_mem (a := l.implementationPiece) (by simp [pieces])
  have bind : ¬ Inside bindAttribute := by decide
  have connection : ¬ Inside connectionInterface := by decide
  have case : ¬ Inside testCase := by decide
  have refresh : ¬ Inside refreshDatabase := by decide
  rw [pieces, List.cons_append, List.forall_mem_cons, List.forall_mem_append, List.forall_mem_map, List.forall_mem_cons,
    List.forall_mem_singleton]
  refine ⟨⟨_, _, h.interface, ?_⟩, fun c hc => ⟨_, _, h.carrier hc, by simp⟩, ⟨_, _, h.implementation, ?_⟩,
    ⟨_, _, h.test, ?_⟩⟩
  · rw [List.map_append, List.forall_mem_append]
    refine ⟨fun n hn _ => name_mem hn, ?_⟩
    exact List.forall_mem_cons.2 ⟨fun inside => absurd inside bind, List.forall_mem_singleton.2 fun _ => implementation⟩
  · rw [List.map_append, List.forall_mem_append]
    refine ⟨?_, fun n hn _ => name_mem hn⟩
    exact List.forall_mem_cons.2
      ⟨fun _ => interface, List.forall_mem_singleton.2 fun inside => absurd inside connection⟩
  · exact List.forall_mem_cons.2 ⟨fun inside => absurd inside case, List.forall_mem_cons.2
      ⟨fun inside => absurd inside refresh, List.forall_mem_singleton.2 fun _ => implementation⟩⟩

theorem Sound.nodup_names (h : l.Sound) : (l.pieces.map Piece.name).Nodup := by
  refine .of_map Name.last ?_
  have carriers : (l.carriers.map l.carrierPiece).map (Name.last ∘ Piece.name) =
      (l.carriers.map Prod.fst).map (l.operation.subject ++ ·) := by
    rw [List.map_map, List.map_map]
    exact List.map_congr_left fun c hc => (h.contract hc).last_eq
  have own : ((l.operation.side.word ++ "Handler") :: l.carriers.map Prod.fst ++
      [l.operation.side.word ++ "HandlerImplementation", l.operation.side.word ++ "HandlerImplementationTest"]).Sublist
      l.operation.side.suffixes := (h.carriers.cons_cons _).append (List.Sublist.refl _)
  refine Operation.nodup_ends own [] (by simp) (.of_eq ?_)
  have interface : Name.last l.interfacePiece.name = _ := h.interface.own.last_eq
  have implementation : Name.last l.implementationPiece.name = _ := h.implementation.own.last_eq
  have test : Name.last l.testPiece.name = _ := h.test.own.last_eq
  simp only [pieces, List.map_map, List.map_append, List.map_cons, List.map_nil, List.append_nil,
    interface, implementation, test, ← carriers]
  rfl

end Layout

end Command

end PhpScaffold
