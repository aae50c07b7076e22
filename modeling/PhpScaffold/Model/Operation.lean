import PhpScaffold.Model.File

namespace PhpScaffold

inductive Call
  | addAttribute (name arguments : Value)
  | setComment (text : Value)
  | addComment (line : Value)
  | setType (type : Value)
  | setNullable (on : Value)
  | setVariadic (on : Value)
  | setByReference (on : Value)
  | setDefault (value : Value)
  | setValue (value : Value)
  | setVisibility (keyword : Value)
  | markVisibility (visibility : Visibility)
  | setStatic (on : Value)
  | setFinal (on : Value)
  | setAbstract (on : Value)
  | setReadonly (on : Value)
  | addParameter (name : Value) (default : Option Value)
  | addPromoted (name : Value) (default : Option Value)
  | parameters
  | setReturnType (type : Value)
  | setReturnNullable (on : Value)
  | setBody (text : Value)
  | addBody (line : Value)
  | addMethod (name : Value)
  | method (name : Value)
  | hasMethod (name : Value)
  | methods
  | addConstant (name value : Value)
  | addProperty (name : Value) (value : Option Value)
  | setProperties (properties : Value)
  | property (name : Value)
  | properties
  | addTrait (name : Value)
  | traits
  | setParents (names : Value)
  | addParent (name : Value)
  | parents
  | addInterface (name : Value)
  | setInterfaces (names : Value)
  | interfaces
  | addCase (name value : Value)
  | cases
  | addUse (name aliasName : Value)
  | uses
  | addElement (kind name : Value)
  | elements
  | qualify (short : Value)
  | setStrictTypes (on : Value)
  | addNamespace (name : Value)
  | namespaces
  | primaryElement (scope : Value)

/-- A word, the type of part it belongs to, the names of the arguments it needs and the number of those it can do
without. -/
structure Operation where
  home : String
  word : String
  needed : List String := []
  spare : Nat := 0
  call : List Value → Call

namespace Operation

def read (o : Operation) (arguments : List Value) : Except Fault Call :=
  let title := o.home ++ "." ++ o.word
  let least := o.needed.length
  if least + o.spare < arguments.length then
    throw (.surplus title (least + 1) (least + o.spare + 1) (arguments.length + 1))
  else if arguments.length < least then throw (.lacking title (o.needed.drop arguments.length))
  else return o.call arguments

def first (arguments : List Value) : Value := arguments.headD .null

def second (arguments : List Value) : Value := arguments[1]?.getD .null

def plain (home word : String) (call : Call) : Operation :=
  { home, word, call := fun _ => call }

def unary (home word argument : String) (call : Value → Call) : Operation :=
  { home, word, needed := [argument], call := fun vs => call (first vs) }

def switch (home word : String) (call : Value → Call) : Operation :=
  { home, word, spare := 1, call := fun vs => call (vs.headD true) }

def holder (home word : String) (call : Value → Option Value → Call) : Operation :=
  { home, word, needed := ["name"], spare := 1, call := fun vs => call (first vs) vs[1]? }

def ofAnnotations : List Operation := [
  { home := "_Attributable", word := "add_attribute", needed := ["name"], spare := 1
    call := fun vs => .addAttribute (first vs) (second vs) },
  unary "_Commented" "set_comment" "comment" .setComment,
  unary "_Commented" "add_comment" "line" .addComment]

def ofVisibility (home : String) : List Operation := [
  unary home "set_visibility" "visibility" .setVisibility,
  plain home "set_public" (.markVisibility .pub),
  plain home "set_protected" (.markVisibility .prot),
  plain home "set_private" (.markVisibility .priv)]

def ofParameter (promoted : Bool) : List Operation :=
  ofAnnotations ++ [
    unary "Parameter" "set_type" "type_" .setType,
    switch "Parameter" "set_nullable" .setNullable,
    switch "Parameter" "set_variadic" .setVariadic,
    switch "Parameter" "set_reference" .setByReference,
    unary "Parameter" "set_default_value" "value" .setDefault] ++
  if promoted then
    ofVisibility "PromotedParameter" ++ [switch "PromotedParameter" "set_readonly" .setReadonly]
  else []

def ofMethod : List Operation :=
  ofAnnotations ++ ofVisibility "Method" ++ [
    holder "Method" "add_parameter" .addParameter,
    holder "Method" "add_promoted_parameter" .addPromoted,
    plain "Method" "get_parameters" .parameters,
    unary "Method" "set_return_type" "type_" .setReturnType,
    switch "Method" "set_return_nullable" .setReturnNullable,
    switch "Method" "set_static" .setStatic,
    switch "Method" "set_final" .setFinal,
    switch "Method" "set_abstract" .setAbstract,
    unary "Method" "set_body" "body" .setBody,
    unary "Method" "add_body" "line" .addBody]

def ofProperty : List Operation :=
  ofAnnotations ++ ofVisibility "Property" ++ [
    unary "Property" "set_type" "type_" .setType,
    switch "Property" "set_nullable" .setNullable,
    switch "Property" "set_static" .setStatic,
    switch "Property" "set_readonly" .setReadonly,
    unary "Property" "set_value" "value" .setValue]

def ofConstant : List Operation :=
  ofAnnotations ++ (ofVisibility "Constant").filter (·.word ≠ "set_protected") ++
    [switch "Constant" "set_final" .setFinal]

def ofTraitUser : List Operation := [
  unary "_TraitUser" "add_trait" "name" .addTrait,
  plain "_TraitUser" "get_traits" .traits]

def ofPropertyHolder : List Operation := [
  holder "_PropertyHolder" "add_property" .addProperty,
  unary "_PropertyHolder" "set_properties" "properties" .setProperties,
  unary "_PropertyHolder" "get_property" "name" .property,
  plain "_PropertyHolder" "get_properties" .properties]

def shared : List Operation :=
  ofAnnotations ++ [
    unary "ClassLike" "add_method" "name" .addMethod,
    unary "ClassLike" "get_method" "name" .method,
    unary "ClassLike" "has_method" "name" .hasMethod,
    plain "ClassLike" "get_methods" .methods,
    { home := "ClassLike", word := "add_constant", needed := ["name", "value"]
      call := fun vs => .addConstant (first vs) (second vs) },
    plain "ClassLike" "get_extends" .parents,
    plain "ClassLike" "get_implements" .interfaces,
    plain "ClassLike" "get_traits" .traits,
    plain "ClassLike" "get_properties" .properties]

def ofElement : Kind → List Operation
  | .cls => ofTraitUser ++ ofPropertyHolder ++ [
      unary "ClassType" "set_extends" "name" .setParents,
      plain "ClassType" "get_extends" .parents,
      unary "ClassType" "add_implement" "name" .addInterface,
      unary "ClassType" "set_implements" "names" .setInterfaces,
      plain "ClassType" "get_implements" .interfaces,
      switch "ClassType" "set_final" .setFinal,
      switch "ClassType" "set_abstract" .setAbstract,
      switch "ClassType" "set_readonly" .setReadonly] ++ shared
  | .interface => [
      unary "InterfaceType" "add_extend" "name" .addParent,
      unary "InterfaceType" "set_extends" "names" .setParents,
      plain "InterfaceType" "get_extends" .parents] ++ shared
  | .trait => ofTraitUser ++ ofPropertyHolder ++ shared
  | .enum => ofTraitUser ++ [
      unary "EnumType" "set_type" "backing_type" .setType,
      { home := "EnumType", word := "add_case", needed := ["name"], spare := 1
        call := fun vs => .addCase (first vs) (second vs) },
      plain "EnumType" "get_cases" .cases,
      unary "EnumType" "add_implement" "name" .addInterface,
      plain "EnumType" "get_implements" .interfaces] ++ shared

def ofNamespace : List Operation := [
  { home := "PhpNamespace", word := "add_use", needed := ["name"], spare := 1
    call := fun vs => .addUse (first vs) (second vs) },
  plain "PhpNamespace" "get_uses" .uses,
  { home := "PhpNamespace", word := "add_element", needed := ["kind", "name"]
    call := fun vs => .addElement (first vs) (second vs) },
  unary "PhpNamespace" "add_class" "name" (.addElement Kind.cls.keyword),
  unary "PhpNamespace" "add_interface" "name" (.addElement Kind.interface.keyword),
  unary "PhpNamespace" "add_trait" "name" (.addElement Kind.trait.keyword),
  unary "PhpNamespace" "add_enum" "name" (.addElement Kind.enum.keyword),
  plain "PhpNamespace" "get_elements" .elements,
  unary "PhpNamespace" "qualify" "short_name" .qualify]

def ofFile : List Operation := [
  switch "PhpFile" "set_strict_types" .setStrictTypes,
  unary "PhpFile" "add_comment" "line" .addComment,
  unary "PhpFile" "add_namespace" "name" .addNamespace,
  plain "PhpFile" "get_namespaces" .namespaces,
  { home := "PhpFile", word := "primary_element", spare := 1, call := fun vs => .primaryElement (first vs) }]

end Operation

end PhpScaffold
