import PhpScaffold.Text.Surrogate
import PhpScaffold.Value

namespace PhpScaffold

/-- What a caller can tell about a failure without reading it. -/
inductive Category
  | configuration
  | value
  | key
  | type
  | lookup
  | operation
  | runtime
  | batch
  | decoding
  | encoding
  | template
  | system (name : String)
  deriving DecidableEq

namespace Category

def label : Category → String
  | configuration => "ConfigError"
  | value => "ValueError"
  | key => "KeyError"
  | type => "TypeError"
  | lookup => "LookupError"
  | operation => "AttributeError"
  | runtime => "RuntimeError"
  | batch => "BatchBuildError"
  | decoding => "UnicodeDecodeError"
  | encoding => "UnicodeEncodeError"
  | template => "TemplateSyntaxError"
  | system name => name

def ofLabel (name : String) : Category :=
  ([configuration, value, key, type, lookup, operation, runtime, batch, decoding, encoding,
      template].find?
    (·.label = name)).getD (system name)

@[simp] theorem ofLabel_label (c : Category) (h : ∀ n, c ≠ system n) : ofLabel c.label = c := by
  cases c <;> first | rfl | exact absurd rfl (h _)

def isUsage : Category → Bool
  | configuration | value | decoding | encoding => true
  | _ => false

end Category

inductive Tier
  | normal
  | priority
  deriving DecidableEq

def Tier.label : Tier → String
  | normal => "normal"
  | priority => "priority"

def Tier.title : Tier → String
  | normal => "Normal"
  | priority => "Priority"

inductive ConfigFault
  | kind (text : String)
  | noMapping
  | emptyNamespace (tier : Tier)
  | emptyDirectory (tier : Tier) (lead : String)
  | sharedDirectory (tier : Tier) (directory first second : String)
  | unreadable (file reason : String)
  | notMapping (file : String)
  | tableShape (key : String)
  | composerMissing (path : String)
  | composerUnreadable (path reason : String)
  | composerShape (path : String)
  | unknownCommands (names : List String)
  | pluginClash (command entry : String)
  | pluginImport (entry reason : String)
  | pluginShape (entry : String)
  deriving DecidableEq

def ConfigFault.message : ConfigFault → String
  | kind text => "Unsupported element kind: " ++ text
  | noMapping => "At least one PSR-4 mapping must be configured (psr4 or priority_psr4)"
  | emptyNamespace tier => tier.title ++ " PSR-4 namespace cannot be empty"
  | emptyDirectory tier lead =>
    tier.title ++ " PSR-4 directory for namespace '" ++ lead ++ "' cannot be empty"
  | sharedDirectory tier directory first second =>
    "Duplicate directory '" ++ directory ++ "' found in " ++ tier.label ++ " PSR-4 mappings. " ++
      "Namespaces '" ++ first ++ "' and '" ++ second ++ "' both map to the same directory."
  | unreadable file reason => "Failed to parse " ++ file ++ ": " ++ reason
  | notMapping file => file ++ " must contain a mapping at the root"
  | tableShape key => "'" ++ key ++ "' must be a mapping of namespace prefix to directory"
  | composerMissing path => "Composer file not found: " ++ path
  | composerUnreadable path reason => "Invalid JSON in composer file " ++ path ++ ": " ++ reason
  | composerShape path => "Invalid JSON in composer file: " ++ path
  | unknownCommands names => "Unknown commands requested: " ++ ", ".intercalate names
  | pluginClash command entry =>
    "Plugin command '" ++ command ++ "' from entry point '" ++ entry ++
      "' clashes with an existing command"
  | pluginImport entry reason => "Could not import plugin command '" ++ entry ++ "': " ++ reason
  | pluginShape entry => "Entry point '" ++ entry ++ "' must provide a Command subclass or factory"

inductive Problem
  | missing (key : String)
  | unknown (key : String)
  | invalid (key expected : String)
  | strange (shown : String)
  | unreadableKey
  deriving DecidableEq

def Problem.message : Problem → String
  | missing key => "Required argument '" ++ key ++ "' is missing"
  | unknown key => "Unknown parameter '" ++ key ++ "'"
  | invalid key expected => "Parameter '" ++ key ++ "' is invalid: Input should be a valid " ++ expected
  | strange shown => "Parameter '" ++ shown ++ "' is invalid: Keys should be strings"
  | unreadableKey =>
    "Parameter '' is invalid: Input should be a valid string, unable to parse raw data as a unicode string"

inductive SlotFault
  | hidden (name : String)
  | givenTwice
  | notPairs
  | optionalBase
  | base
  | rules
  | root
  | title
  | member (name : String)
  deriving DecidableEq

namespace SlotFault

def category : SlotFault → Category
  | hidden _ | rules | root => .system "PydanticUserError"
  | member _ => .value
  | _ => .type

def explained (page : String) : String :=
  "\n\nFor further information visit " ++ "://".intercalate ["https", "errors.pydantic.dev/2.14/u/" ++ page]

def message : SlotFault → String
  | hidden name =>
    let bare := Text.trimStart (· = '_') name
    "Fields must not use names with leading underscores; e.g., use " ++
      Text.quoted (if bare.isEmpty then "my_field" else bare) ++ " instead of " ++ Text.quoted name ++ "."
  | givenTwice => "pydantic.main.create_model() got multiple values for keyword argument '__config__'"
  | notPairs => "cannot convert dictionary update sequence element #0 to a sequence"
  | optionalBase => "Cannot subclass typing.Optional[str]"
  | base =>
    "metaclass conflict: the metaclass of a derived class must be a (non-strict) subclass of the metaclasses of " ++
      "all its bases"
  | rules => "\"Config\" and \"model_config\" cannot be used together" ++ explained "config-both"
  | root => "To define root models, use `pydantic.RootModel` rather than a field called '__root__'"
  | title => "type __qualname__ must be a str, not tuple"
  | member name =>
    "Field " ++ Text.quoted name ++ " conflicts with member <bound method BaseModel." ++ name ++
      " of <class 'pydantic.main.BaseModel'>> of protected namespace 'model_validate'."

end SlotFault

inductive SystemFault
  | notDirectory
  | exists
  | isDirectory
  | nameTooLong
  | missing
  | nullByte
  | unpaired
  deriving DecidableEq

inductive TextUse
  | trim
  | start
  | search
  deriving DecidableEq

def TextUse.refusal : TextUse → String
  | trim => "a bytes-like object is required, not 'str'"
  | start => "startswith first arg must be bytes or a tuple of bytes, not str"
  | search => "cannot use a string pattern on a bytes-like object"

inductive Missing
  | name (name : String)
  | member (owner name : String)
  | element (owner key : String)
  | nothing (hint : String)
  deriving DecidableEq

namespace Missing

def subject (owner : String) : String := if owner = "NoneType" then "None" else owner ++ " object"

def message : Missing → String
  | name n => Text.quoted n ++ " is undefined"
  | member owner n => Text.quoted (subject owner) ++ " has no attribute " ++ Text.quoted n
  | element owner key => subject owner ++ " has no element " ++ key
  | nothing hint => hint

end Missing

inductive Nesting
  | node
  | list
  | map
  deriving DecidableEq

def Nesting.message (n : Nesting) : String :=
  "maximum recursion depth exceeded" ++ match n with
    | node => ""
    | list => " while decoding a JSON array from a unicode string"
    | map => " while decoding a JSON object from a unicode string"

inductive Fault
  | visibility (text : String)
  | backing (text : String)
  | noMethod (method owner : String)
  | noMember (key : Value)
  | noOperation (owner operation : String)
  | unprintable (typeName : String)
  | wrongElement (name expected actual : String)
  | config (cause : ConfigFault)
  | emptyArgument (name : String)
  | noOption (command option : String)
  | properties
  | parameters (problems : List Problem)
  | factoryRaised (key label text : String)
  | notBlueprint (key typeName : String)
  | notCallable (typeName : String)
  | grown
  | slot (cause : SlotFault)
  | flagClash (title : String) (spellings : List String)
  | commandClash (name : String)
  | dashesOnly (name : String)
  | noCharacter
  | notWhole (base : Nat) (text : String)
  | notReal (text : String)
  | longText (digits : Nat)
  | longNumber
  | largeNumber
  | noSuchCharacter (code : Nat)
  | tooDeep (what : Nesting)
  | time (cause : TimeFault)
  | surplus (operation : String) (least most given : Nat)
  | lacking (operation : String) (arguments : List String)
  | unknownKind (shown : String)
  | notText (index : Nat) (typeName : String)
  | notExtensible (typeName : String)
  | unlikeBytes (use : TextUse)
  | unhashable (typeName : String)
  | notIterable (typeName : String)
  | notSearchable (typeName : String)
  | undecodable (reason : String)
  | unpaired (start : Nat) (halves : List Nat)
  | template (reason : String)
  | meaningless (reason : String)
  | absent (what : Missing)
  | notGrowable (typeName : String)
  | system (cause : SystemFault) (path : String)
  | raised (category : Category) (message : String)

namespace Fault

def category : Fault → Category
  | visibility _ | backing _ | emptyArgument _ | properties | parameters _ | dashesOnly _ => .value
  | notWhole _ _ | notReal _ | longText _ | longNumber | time _ | unknownKind _ => .value
  | noSuchCharacter code => if code < 0x80000000 then .value else .system "OverflowError"
  | unhashable _ | notIterable _ | notSearchable _ | surplus _ _ _ _ | lacking _ _ => .type
  | notText _ _ | notExtensible _ | unlikeBytes _ | notCallable _ => .type
  | grown => .runtime
  | noMethod _ _ | noMember _ | noOption _ _ => .key
  | noOperation _ _ => .operation
  | unprintable _ | wrongElement _ _ _ => .type
  | config _ => .configuration
  | factoryRaised _ _ _ | notBlueprint _ _ => .batch
  | flagClash _ _ | commandClash _ => .system "ArgumentError"
  | slot cause => cause.category
  | noCharacter => .system "IndexError"
  | undecodable _ => .decoding
  | unpaired _ _ | system .unpaired _ => .encoding
  | largeNumber => .system "OverflowError"
  | tooDeep _ => .system "RecursionError"
  | template _ => .template
  | meaningless _ => .system "TemplateAssertionError"
  | absent _ => .system "UndefinedError"
  | notGrowable _ => .type
  | system .nullByte _ => .value
  | system .notDirectory _ => .system "NotADirectoryError"
  | system .exists _ => .system "FileExistsError"
  | system .isDirectory _ => .system "IsADirectoryError"
  | system .nameTooLong _ => .system "OSError"
  | system .missing _ => .system "FileNotFoundError"
  | raised c _ => c

def unpairedMessage (start : Nat) (halves : List Nat) : String :=
  "'utf-8' codec can't encode character" ++ (match halves with
    | [n] => " '" ++ .ofList ('\\' :: 'u' :: Text.hex 4 n) ++ "' in position " ++ toString start
    | _ => "s in position " ++ toString start ++ "-" ++ toString (start + halves.length - 1)) ++
    ": surrogates not allowed"

def message : Fault → String
  | visibility text => "Unknown visibility '" ++ text ++ "'"
  | backing text => "Enum backing type must be int or string, got '" ++ text ++ "'"
  | noMethod method owner => "Method '" ++ method ++ "' not found in " ++ owner
  | noMember key => key.display
  | noOperation owner operation => "'" ++ owner ++ "' object has no attribute '" ++ operation ++ "'"
  | unprintable typeName => "Cannot print value of type " ++ typeName
  | wrongElement name expected actual =>
    "Structure for " ++ name ++ " must return " ++ expected ++ ", got " ++ actual
  | config cause => cause.message
  | emptyArgument name => "Argument '" ++ name ++ "' must be a non-empty string"
  | noOption command option => "Command '" ++ command ++ "' has no option '" ++ option ++ "'"
  | properties => "Properties must be a string"
  | parameters problems => "; ".intercalate (problems.map Problem.message)
  | factoryRaised key label text =>
    "Failed to build '" ++ key ++ "': factory raised " ++ label ++ ": " ++ text
  | notBlueprint key typeName =>
    "Failed to build '" ++ key ++ "': factory must return a blueprint, got " ++ typeName
  | notCallable typeName => "'" ++ typeName ++ "' object is not callable"
  | grown => "dictionary changed size during iteration"
  | slot cause => cause.message
  | flagClash title spellings =>
    "argument " ++ title ++ ": conflicting option string" ++ (if spellings.length = 1 then "" else "s") ++ ": " ++
      ", ".intercalate spellings
  | commandClash name => "argument subcommand: conflicting subparser: " ++ name
  | noCharacter => "string index out of range"
  | notWhole base text =>
    "invalid literal for int() with base " ++ toString base ++ ": " ++ .ofList ((Text.quoted text).toList.take 200)
  | notReal text => "could not convert string to float: " ++ Text.quoted text
  | longText digits =>
    "Exceeds the limit (4300 digits) for integer string conversion: value has " ++ toString digits ++
      " digits; use sys.set_int_max_str_digits() to increase the limit"
  | longNumber =>
    "Exceeds the limit (4300 digits) for integer string conversion; use sys.set_int_max_str_digits() to increase the limit"
  | noSuchCharacter code =>
    if code < 0x80000000 then "chr() arg not in range(0x110000)" else "Python int too large to convert to C int"
  | largeNumber => "int too large to convert to float"
  | tooDeep what => what.message
  | time cause => cause.message
  | unhashable typeName => "unhashable type: '" ++ typeName ++ "'"
  | notIterable typeName => "'" ++ typeName ++ "' object is not iterable"
  | notSearchable typeName => "expected string or bytes-like object, got '" ++ typeName ++ "'"
  | surplus operation least most given =>
    operation ++ "() takes " ++ (if least = most then "" else "from " ++ toString least ++ " to ") ++
      toString most ++ " positional argument" ++ (if least = most ∧ most = 1 then "" else "s") ++ " but " ++
      toString given ++ (if given = 1 then " was" else " were") ++ " given"
  | lacking operation arguments =>
    operation ++ "() missing " ++ toString arguments.length ++ " required positional argument" ++
      (if arguments.length = 1 then "" else "s") ++ ": " ++
      " and ".intercalate (arguments.map fun a => "'" ++ a ++ "'")
  | unknownKind shown => shown ++ " is not a valid ElementKind"
  | notText index typeName =>
    "sequence item " ++ toString index ++ ": expected str instance, " ++ typeName ++ " found"
  | notExtensible typeName =>
    if typeName ∈ ["list", "tuple"] then
      "can only concatenate " ++ typeName ++ " (not \"str\") to " ++ typeName
    else if typeName = "bytes" then "can't concat str to bytes"
    else "unsupported operand type(s) for +: '" ++ typeName ++ "' and 'str'"
  | unlikeBytes use => use.refusal
  | dashesOnly name => "dest= is required for options like " ++ Text.quoted name
  | undecodable reason => reason
  | unpaired start halves => unpairedMessage start halves
  | template reason => reason
  | meaningless reason => reason
  | absent what => what.message
  | notGrowable typeName => "unsupported operand type(s) for +=: '" ++ typeName ++ "' and 'str'"
  | system .notDirectory path => "[Errno 20] Not a directory: " ++ Text.quoted path
  | system .exists path => "[Errno 17] File exists: " ++ Text.quoted path
  | system .isDirectory path => "[Errno 21] Is a directory: " ++ Text.quoted path
  | system .nameTooLong path => "[Errno 36] File name too long: " ++ Text.quoted path
  | system .missing path => "[Errno 2] No such file or directory: " ++ Text.quoted path
  | system .nullByte _ => "embedded null byte"
  | system .unpaired path => match Text.firstUnnameable? path with
    | some (start, halves) => unpairedMessage start halves
    | none => ""
  | raised _ message => message

def text (f : Fault) : String :=
  match f with
  | noMember key => key.inspect
  | f => if f.category = .key then Text.quoted f.message else f.message

def entry? : Fault → Option String
  | factoryRaised key _ _ => some key
  | notBlueprint key _ => some key
  | _ => none

end Fault

def Value.shown (v : Value) : Except Fault String :=
  if v.isLong then throw .longNumber else return v.display

@[simp] theorem Value.shown_text (s : String) : (Value.text s).shown = .ok s := by
  rw [shown, if_neg (by simp [isLong]), display_text]
  rfl

def readWhole (base : Nat) (s : String) : Except Fault Int :=
  (Decimal.readWhole base s).mapError fun
    | .form => .notWhole base s
    | .tooLong digits => .longText digits

def storable (s : String) : Except Fault Unit :=
  match Text.firstHalves? s with
  | none => return ()
  | some (start, halves) => throw (.unpaired start halves)

def readReal (s : String) : Except Fault Float :=
  match Decimal.readReal? s with
  | some x => return x
  | none => throw (.notReal s)

end PhpScaffold
