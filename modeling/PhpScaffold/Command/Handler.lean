import PhpScaffold.Command.Basic

namespace PhpScaffold.Command

inductive Side
  | query
  | command
  deriving DecidableEq

def Side.word : Side → String
  | query => "Query"
  | command => "Command"

structure Operation where
  side : Side
  context : String
  subject : String

namespace Operation

def contract (o : Operation) (suffix : String) : String :=
  "App\\Contracts\\" ++ o.side.word ++ "\\" ++ o.context ++ "\\" ++ o.subject ++ suffix

def handlerInterface (o : Operation) : String := o.contract (o.side.word ++ "Handler")

def message (o : Operation) : String := o.contract o.side.word

def result (o : Operation) : String := o.contract "Result"

def below (o : Operation) (suffix : String) : String :=
  "Infrastructure\\" ++ o.side.word ++ "\\" ++ o.context ++ "\\" ++ o.subject ++ o.side.word ++
    "HandlerImplementation" ++ suffix

def implementation (o : Operation) : String := "App\\" ++ o.below ""

def test (o : Operation) : String := "Tests\\Feature\\" ++ o.below "Test"

end Operation

def bindAttribute : String := "Illuminate\\Container\\Attributes\\Bind"

def connectionInterface : String := "Illuminate\\Database\\ConnectionInterface"

def refreshDatabase : String := "Illuminate\\Foundation\\Testing\\RefreshDatabase"

def testCase : String := "Tests\\TestCase"

def remark (text : String) : Annotations := { comment := text }

def handleMethod (message : Option (String × String)) (returns comment : String) (body : Value) :
    Method where
  name := "handle"
  annotations := remark comment
  parameters := .ofList (message.toList.map fun (name, type) => (name, { name, type }))
  returnType := returns
  body := body

def promoted (name type : String) (visibility : Visibility) (comment : Value) : Parameter where
  name := name
  annotations := { comment }
  type := type
  promotion := some { visibility }

def constructor (p : Parameter) (comment body : Value) : Method where
  name := "__construct"
  annotations := { comment }
  parameters := .ofList [(p.name, p)]
  body := body

def interfaceShape (o : Operation) (handle : Method) (e : Element) : Element :=
  (e.withAttribute ⟨bindAttribute, .positional [.classReference o.implementation]⟩).withMethod handle

def carrierShape (construct : Method) (e : Element) : Element :=
  e.freeze.withMethod construct

def implementationShape (o : Operation) (handle : Method) (e : Element) : Element :=
  ((e.freeze.withInterface o.handlerInterface).withMethod
    (constructor (promoted "connection" connectionInterface .priv .null) .null .null)).withMethod handle

def voidMethod (name body : String) : Method where
  name := name
  returnType := "void"
  body := body

def testShape (o : Operation) (field successName successBody : String) (e : Element) : Element :=
  let implementation := (Name.splitLast o.implementation).2
  let setUp := "parent::setUp();\n\n$this->" ++ field ++ " = $this->app->make(" ++ implementation ++
    "::class);"
  let property : Property :=
    { name := field, type := o.implementation, visibility := .priv }
  (((e.withParts testCase refreshDatabase [property]).withMethod (voidMethod "setUp" setUp)).withMethod
    (voidMethod successName successBody)).withMethod
      (voidMethod "testHandleWithInvalidData" "// TODO: Implement test for edge cases")

def shaped (kind : Kind) (name : String) (f : Element → Element) : Except Fault (Blueprint × List Event) :=
  ({ name, kind } : Blueprint).withRecipe (.shape f)

def queryBlueprints (o : Operation) (plain : Bool) : List (Except Fault (Blueprint × List Event)) :=
  let message := if plain then none else some ("query", o.message)
  let handle := handleMethod message o.result
  [shaped .interface o.handlerInterface
    (interfaceShape o (handle "Execute the query and return the result" .null))] ++
  (if plain then [] else [shaped .cls o.message (carrierShape
    (constructor (promoted "id" "int" .pub "Entity ID") "Query constructor with parameters"
      "// TODO: Add query parameters as needed"))]) ++
  [shaped .cls o.result (carrierShape
    (constructor (promoted "data" "mixed" .pub "Query result data")
      "Result constructor with data" "// TODO: Add result properties as needed")),
  shaped .cls o.implementation
    (implementationShape o (handle "@inheritdoc" "// TODO: Implement query logic")),
  shaped .cls o.test (testShape o "queryHandler" "testHandleReturnsExpectedResult"
    "// TODO: Implement test for successful query execution")]

def insertBody : String := "\n".intercalate [
  "// TODO: Implement command logic (INSERT/UPDATE/DELETE)",
  "// Example for INSERT:",
  "// $this->connection->table('users')->insert([",
  "//     'name' => $command->name,",
  "//     'email' => $command->email,",
  "// ]);",
  "// return (int) $this->connection->getPdo()->lastInsertId();",
  "",
  "// For transactions:",
  "// return $this->connection->transaction(function () use ($command) \x7b",
  "//     $this->connection->table('users')->insert([...]);",
  "//     return (int) $this->connection->getPdo()->lastInsertId();",
  "// \x7d);",
  "",
  "throw new \\RuntimeException('Not implemented');"]

def updateBody : String := "\n".intercalate [
  "// TODO: Implement command logic (INSERT/UPDATE/DELETE)",
  "// Example for UPDATE/DELETE:",
  "// $this->connection->table('users')",
  "//     ->where('id', $command->id)",
  "//     ->update(['name' => $command->name]);",
  "",
  "// For transactions:",
  "// $this->connection->transaction(function () use ($command) \x7b",
  "//     $this->connection->table('users')->where(...)->update([...]);",
  "// \x7d);",
  "",
  "throw new \\RuntimeException('Not implemented');"]

def commandBlueprints (o : Operation) (plain answers : Bool) :
    List (Except Fault (Blueprint × List Event)) :=
  let message := if plain then none else some ("command", o.message)
  let handle := handleMethod message (if answers then "int" else "void")
  [shaped .interface o.handlerInterface (interfaceShape o
    (handle (if answers then "Execute the command and return the generated ID" else "Execute the command")
      .null))] ++
  (if plain then [] else [shaped .cls o.message (carrierShape
    (constructor (promoted "id" "int" .pub .null) .null
      "// TODO: Add command parameters as needed"))]) ++
  [shaped .cls o.implementation (implementationShape o
    (handle "@inheritdoc" (if answers then insertBody else updateBody))),
  shaped .cls o.test (testShape o "commandHandler" "testHandleExecutesSuccessfully"
    (if answers then "// TODO: Implement test for successful command execution with ID return"
      else "// TODO: Implement test for successful command execution"))]

def isOn (params : Params) (name : String) : Bool := ((params.get? name).getD .null).truthy

def laidOut (side : Side) (params : Params) (subject : String)
    (blueprints : Operation → List (Except Fault (Blueprint × List Event))) :
    List Event × Except Fault Project :=
  match argument params "context", argument params subject with
  | .error f, _ => ([], .error f)
  | _, .error f => ([], .error f)
  | .ok context, .ok subject => collect (blueprints ⟨side, context, subject⟩)

def generateQuery : Command where
  name := "query:generate"
  description := "Generate Laravel CQRS Query interface, implementation, and test"
  arguments := [
    { name := "context", description := "Context/domain name (e.g., User, Product, Order)" },
    { name := "queryName", description := "Query name (e.g., GetUser, FindProducts, SearchOrders)" }]
  options := [{ name := "no-query", description := "Skip generating the Query class" }]
  handle params := laidOut .query params "queryName" fun o => queryBlueprints o (isOn params "no-query")

def generateCommand : Command where
  name := "command:generate"
  description := "Generate Laravel CQRS Command interface, implementation, and test"
  arguments := [
    { name := "context", description := "Context/domain name (e.g., User, Product, Order)" },
    { name := "commandName", description := "Command name (e.g., CreateUser, UpdateProduct, DeleteOrder)" }]
  options := [
    { name := "no-return-id", description := "Do not return ID (void return type)" },
    { name := "no-command", description := "Skip generating the Command class" }]
  handle params := laidOut .command params "commandName" fun o =>
    commandBlueprints o (isOn params "no-command") (!isOn params "no-return-id")

end PhpScaffold.Command
