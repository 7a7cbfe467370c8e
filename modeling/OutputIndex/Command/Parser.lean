import OutputIndex.Address.Parser
import OutputIndex.Command
import OutputIndex.Settings

/-!
# Reading command lines

A command line is a list of words: options of the program, the name of a command, and the options
and operands of the command.  An option is a name behind two dashes.  It has a value, behind an
equals sign or in the next word, unless it is a switch; it stands at most once.  Behind a word of
two dashes there are operands only.

Words are taken one by one, so a request for help counts unless a word before it is wrong.
-/

namespace OutputIndex

/-- Why a command line gives no command. -/
inductive UsageError where
  /-- It asks for help, or for the version of the program. -/
  | help
  /-- It is wrong. -/
  | invalid
deriving DecidableEq

/-- What the value of an option, or an operand, has to be. -/
inductive ValueForm where
  /-- Any text. -/
  | text
  /-- The path of a file, which is not empty. -/
  | path
  /-- One of the words `true` and `false`. -/
  | truth
  /-- A number of 32 bits. -/
  | number
  | address
  | identifier (kind : IdentifierKind)
deriving DecidableEq

/-- What a command can be given besides its name. -/
structure Signature where
  /-- The options with values. -/
  options : List (String × ValueForm)
  /-- The options without values. -/
  switches : List String
  /-- The operand, which cannot be left out if there is one. -/
  operand : Option ValueForm
deriving DecidableEq

/-- What a command is given. -/
structure Arguments where
  options : List (String × String) := []
  switches : List String := []
  operand : Option String := none
deriving DecidableEq

namespace ValueForm

/-- The truth value of a word. -/
def truth? : String → Option Bool
  | "true" => some true
  | "false" => some false
  | _ => none

/-- The number of 32 bits that a text, with an optional sign, denotes. -/
def number? (text : String) : Option UInt32 := do
  let number ← Digits.integer? text
  if 0 ≤ number ∧ number < UInt32.size then some (UInt32.ofNat number.toNat) else none

/-- Whether a text is a value of the form. -/
def accepts (form : ValueForm) (text : String) : Bool :=
  match form with
  | .text => true
  | .path => !text.isEmpty
  | .truth => (truth? text).isSome
  | .number => (number? text).isSome
  | .address => (Address.ofHex text).toOption.isSome
  | .identifier kind =>
    let id : Except HexError (Identifier kind) := Identifier.ofHex text
    id.toOption.isSome

end ValueForm

namespace Arguments

/-- The bytes that the operand, hexadecimal digits behind at most one marker, denotes. -/
def operandBytes (arguments : Arguments) : Except HexError Bytes :=
  Hex.decodeChars (Hex.dropMarker (arguments.operand.getD "").toList)

/-- Whether an option or a switch is given. -/
def has (arguments : Arguments) (name : String) : Bool :=
  arguments.switches.contains name || arguments.options.any (·.1 == name)

/-- The value of an option. -/
def value? (arguments : Arguments) (name : String) : Option String :=
  (arguments.options.find? (·.1 == name)).map (·.2)

/-- The arguments with one more option. -/
def withOption (arguments : Arguments) (form : ValueForm) (name value : String) :
    Except UsageError Arguments :=
  if arguments.has name || !form.accepts value then .error .invalid
  else .ok { arguments with options := arguments.options ++ [(name, value)] }

/-- The arguments with one more switch. -/
def withSwitch (arguments : Arguments) (name : String) : Except UsageError Arguments :=
  if arguments.has name then .error .invalid
  else .ok { arguments with switches := arguments.switches ++ [name] }

/-- The arguments with an operand. -/
def withOperand (arguments : Arguments) (signature : Signature) (value : String) :
    Except UsageError Arguments :=
  match signature.operand, arguments.operand with
  | some form, none =>
    if form.accepts value then .ok { arguments with operand := some value } else .error .invalid
  | _, _ => .error .invalid

end Arguments

/-- Whether a word looks like an option. -/
def isOptionWord (word : String) : Bool := word.startsWith "-" && word != "-"

/-- The name of an option's word, and the value in the same word if there is one. -/
def splitOptionWord (word : String) : String × Option String :=
  let text := (word.drop 2).toString.toList
  let name := String.ofList (text.takeWhile (· != '='))
  match text.dropWhile (· != '=') with
  | [] => (name, none)
  | _ :: value => (name, some (String.ofList value))

namespace Signature

/-- Takes one option: `next` is the word behind it.  The flag says whether that word is used up. -/
def takeOption (signature : Signature) (arguments : Arguments) (word : String)
    (next : Option String) : Except UsageError (Arguments × Bool) :=
  let (name, attached) := splitOptionWord word
  match signature.options.lookup name, attached with
  | some form, some value => return (← arguments.withOption form name value, false)
  | some form, none =>
    match next with
    | some value =>
      -- what looks like an option is no value, even where one is due
      if isOptionWord value then .error .invalid
      else return (← arguments.withOption form name value, true)
    | none => .error .invalid
  | none, some _ => .error .invalid
  | none, none =>
    if signature.switches.contains name then return (← arguments.withSwitch name, false)
    else .error .invalid

/-- Takes the words behind the name of a command; `literal` says whether only operands follow. -/
def take (signature : Signature) (literal : Bool) :
    List String → Arguments → Except UsageError Arguments
  | [], arguments =>
    if signature.operand.isSome && arguments.operand.isNone then .error .invalid
    else .ok arguments
  | word :: rest, arguments =>
    if literal then do signature.take true rest (← arguments.withOperand signature word)
    else if word = "--" then signature.take true rest arguments
    -- help is given at once, whatever stands behind the request for it
    else if word = "--help" ∨ word.startsWith "-h" then .error .help
    else if word.startsWith "--" then
      match rest with
      | [] => do
        let (arguments, _) ← signature.takeOption arguments word none
        signature.take false [] arguments
      | next :: rest' => do
        let (arguments, used) ← signature.takeOption arguments word (some next)
        if used then signature.take false rest' arguments
        else signature.take false (next :: rest') arguments
    else if isOptionWord word then .error .invalid
    else do signature.take false rest (← arguments.withOperand signature word)

/-- What the words behind the name of a command give it. -/
def read (signature : Signature) (words : List String) : Except UsageError Arguments :=
  signature.take false words {}

end Signature

/-! ## Questions -/

namespace QueryRequest

/-- The options that all filters have. -/
def commonOptions : List (String × ValueForm) :=
  [("created-before", .number), ("created-after", .number), ("page-size", .number),
   ("cursor", .text)]

/-- The options on the returns and locks of an output. -/
def lockOptions : List (String × ValueForm) :=
  [("unlockable-by-address", .address), ("address", .address),
   ("has-storage-deposit-return", .truth), ("storage-deposit-return-address", .address),
   ("has-expiration", .truth), ("expiration-return-address", .address),
   ("expires-before", .number), ("expires-after", .number), ("has-timelock", .truth),
   ("timelocked-before", .number), ("timelocked-after", .number), ("sender", .address),
   ("tag", .text)]

/-- The options on native tokens. -/
def tokenOptions : List (String × ValueForm) :=
  [("has-native-token", .truth), ("native-token", .identifier .foundry)]

/-- The address that is the value of an option. -/
def address? (arguments : Arguments) (name : String) : Option Address := do
  (Address.ofHex (← arguments.value? name)).toOption

/-- The number that is the value of an option. -/
def number? (arguments : Arguments) (name : String) : Option UInt32 := do
  ValueForm.number? (← arguments.value? name)

/-- The truth value that is the value of an option. -/
def truth? (arguments : Arguments) (name : String) : Option Bool := do
  ValueForm.truth? (← arguments.value? name)

/-- The native token that is asked for. -/
def nativeToken? (arguments : Arguments) : Option FoundryId := do
  (Identifier.ofHex (← arguments.value? "native-token")).toOption

/-- The tag that is asked for. -/
def tag? (arguments : Arguments) : Except HexError (Option Bytes) :=
  -- a tag can be any text on a command line, so a wrong one is found only here
  match arguments.value? "tag" with
  | none => .ok none
  | some text => (Hex.decodeChars (Hex.dropMarker text.toList)).map some

/-- The bounds whose options have names that begin with a word. -/
def range (arguments : Arguments) (name : String) : SlotRange where
  before := number? arguments (name ++ "-before")
  after := number? arguments (name ++ "-after")

/-- The filter on basic outputs. -/
def basicFilter (arguments : Arguments) (tag : Option Bytes) : BasicFilter where
  hasNativeToken := truth? arguments "has-native-token"
  nativeToken := nativeToken? arguments
  unlockableBy := address? arguments "unlockable-by-address"
  address := address? arguments "address"
  hasStorageDepositReturn := truth? arguments "has-storage-deposit-return"
  storageDepositReturnAddress := address? arguments "storage-deposit-return-address"
  hasExpiration := truth? arguments "has-expiration"
  expirationReturnAddress := address? arguments "expiration-return-address"
  expires := range arguments "expires"
  hasTimelock := truth? arguments "has-timelock"
  timelocked := range arguments "timelocked"
  sender := address? arguments "sender"
  tag := tag
  created := range arguments "created"

/-- The filter on accounts. -/
def accountFilter (arguments : Arguments) : AccountFilter where
  address := address? arguments "address"
  issuer := address? arguments "issuer"
  sender := address? arguments "sender"
  created := range arguments "created"

/-- The filter on anchors. -/
def anchorFilter (arguments : Arguments) : AnchorFilter where
  unlockableBy := address? arguments "unlockable-by-address"
  stateController := address? arguments "state-controller"
  governor := address? arguments "governor"
  issuer := address? arguments "issuer"
  sender := address? arguments "sender"
  created := range arguments "created"

/-- The filter on NFTs. -/
def nftFilter (arguments : Arguments) (tag : Option Bytes) : NftFilter where
  unlockableBy := address? arguments "unlockable-by-address"
  address := address? arguments "address"
  hasStorageDepositReturn := truth? arguments "has-storage-deposit-return"
  storageDepositReturnAddress := address? arguments "storage-deposit-return-address"
  hasExpiration := truth? arguments "has-expiration"
  expirationReturnAddress := address? arguments "expiration-return-address"
  expires := range arguments "expires"
  hasTimelock := truth? arguments "has-timelock"
  timelocked := range arguments "timelocked"
  issuer := address? arguments "issuer"
  sender := address? arguments "sender"
  tag := tag
  created := range arguments "created"

/-- The filter on foundries. -/
def foundryFilter (arguments : Arguments) : FoundryFilter where
  hasNativeToken := truth? arguments "has-native-token"
  nativeToken := nativeToken? arguments
  account := address? arguments "account"
  created := range arguments "created"

/-- The filter on delegations. -/
def delegationFilter (arguments : Arguments) : DelegationFilter where
  address := address? arguments "address"
  validator := address? arguments "validator"
  created := range arguments "created"

/-- The filter on all kinds. -/
def combinedFilter (arguments : Arguments) : CombinedFilter where
  hasNativeToken := truth? arguments "has-native-token"
  nativeToken := nativeToken? arguments
  unlockableBy := address? arguments "unlockable-by-address"
  created := range arguments "created"

/-- The page that is asked for. -/
def page (arguments : Arguments) : PageRequest where
  size := number? arguments "page-size"
  cursor := arguments.value? "cursor"

/-- The question for the outputs that a filter admits. -/
def ofFilter (options : List (String × ValueForm))
    (filter : Arguments → Except HexError Filter) (words : List String) :
    Except UsageError QueryRequest := do
  let arguments ← Signature.read ⟨options ++ commonOptions, [], none⟩ words
  return .filtered (filter arguments) (page arguments)

/-- The question for a chain or foundry. -/
def ofIdentity (kind : OutputKind) (id : IdentifierKind) (words : List String) :
    Except UsageError QueryRequest := do
  let arguments ← Signature.read ⟨[], [], some (.identifier id)⟩ words
  -- the operand has been taken only if it is an identifier
  return .byIdentity kind (arguments.operandBytes.toOption.getD [])

/-- The names of the questions. -/
def names : List String :=
  ["basic", "account", "anchor", "nft", "foundry", "delegation", "combined", "account-by-id",
   "anchor-by-id", "nft-by-id", "foundry-by-id", "delegation-by-id"]

/-- Reads the question of a name. -/
def ofWords (name : String) (words : List String) : Except UsageError QueryRequest :=
  match name with
  | "basic" =>
    ofFilter (tokenOptions ++ lockOptions)
      (fun arguments => return .basic (basicFilter arguments (← tag? arguments))) words
  | "account" =>
    ofFilter [("address", .address), ("issuer", .address), ("sender", .address)]
      (fun arguments => .ok (.account (accountFilter arguments))) words
  | "anchor" =>
    ofFilter
      [("unlockable-by-address", .address), ("state-controller", .address),
       ("governor", .address), ("issuer", .address), ("sender", .address)]
      (fun arguments => .ok (.anchor (anchorFilter arguments))) words
  | "nft" =>
    ofFilter (("issuer", .address) :: lockOptions)
      (fun arguments => return .nft (nftFilter arguments (← tag? arguments))) words
  | "foundry" =>
    ofFilter (("account", .address) :: tokenOptions)
      (fun arguments => .ok (.foundry (foundryFilter arguments))) words
  | "delegation" =>
    ofFilter [("address", .address), ("validator", .address)]
      (fun arguments => .ok (.delegation (delegationFilter arguments))) words
  | "combined" =>
    ofFilter (("unlockable-by-address", .address) :: tokenOptions)
      (fun arguments => .ok (.combined (combinedFilter arguments))) words
  | "account-by-id" => ofIdentity .account .account words
  | "anchor-by-id" => ofIdentity .anchor .anchor words
  | "nft-by-id" => ofIdentity .nft .nft words
  | "foundry-by-id" => ofIdentity .foundry .foundry words
  | "delegation-by-id" => ofIdentity .delegation .delegation words
  | _ => .error .invalid

end QueryRequest

/-! ## Commands -/

namespace Command

/-- The names of the commands. -/
def names : List String :=
  ["import", "replay", "query", "resolve-multi", "status", "rollback", "clear"]

/-- The names that can follow a name in a request for help. -/
def namesBehind (name : String) : List String :=
  if name = "query" then "help" :: QueryRequest.names else []

/-- What a request for help comes to: each of its words has to be one of the names that can follow
the word before it. -/
def helpOn (names : List String) : List String → UsageError
  | [] => .help
  | name :: words => if names.contains name then helpOn (namesBehind name) words else .invalid

/-- Reads the command of a name. -/
def ofWords (name : String) (words : List String) : Except UsageError Command :=
  match name with
  | "import" => do
    let arguments ←
      Signature.read ⟨[("node-info", .path), ("snapshot", .path)], ["force"], none⟩ words
    return .importSnapshot (arguments.value? "node-info") (arguments.value? "snapshot")
      (arguments.has "force")
  | "replay" => do
    let arguments ← Signature.read ⟨[("events", .path), ("from", .number)], [], none⟩ words
    return .replay (arguments.value? "events") (QueryRequest.number? arguments "from")
  | "query" =>
    match words with
    | [] => .error .invalid
    | name :: words =>
      if name = "help" then .error (helpOn (namesBehind "query") words)
      else if name = "--help" ∨ name.startsWith "-h" then .error .help
      else (QueryRequest.ofWords name words).map .query
  | "resolve-multi" => do
    let arguments ← Signature.read ⟨[], [], some .text⟩ words
    return .resolveMulti (arguments.operandBytes)
  | "status" => do
    let arguments ← Signature.read ⟨[], ["tables"], none⟩ words
    return .status (arguments.has "tables")
  | "rollback" => do
    discard (Signature.read ⟨[], [], none⟩ words)
    return .rollback
  | "clear" => do
    discard (Signature.read ⟨[], [], none⟩ words)
    return .clear
  | "help" => .error (helpOn ("help" :: names) words)
  | _ => .error .invalid

end Command

namespace Invocation

/-- The settings file that the word of an option names, if it does: the value behind a short name
stands in the same word, with or without an equals sign. -/
def attachedSettingsFile? (word : String) : Option String :=
  if word.startsWith "--config=" then some (word.drop 9).toString
  else if word.startsWith "-c=" then some (word.drop 3).toString
  else if word.startsWith "-c" ∧ word ≠ "-c" then some (word.drop 2).toString
  else none

/-- What the words so far say of the settings file. -/
structure SettingsFile where
  /-- Its path, which has been looked at. -/
  path : Option String := none
  /-- A path that was a word of its own.  It is looked at when the next option comes, or else when
  the command is read. -/
  waiting : Option String := none

namespace SettingsFile

/-- A file whose path is looked at: it must be the first one, and not be empty. -/
def named (known : Option String) (path : String) : Except UsageError (Option String) :=
  if known.isSome || path.isEmpty then .error .invalid else .ok (some path)

/-- The path after the waiting one has been looked at. -/
def settled (file : SettingsFile) : Except UsageError (Option String) :=
  match file.waiting with
  | none => .ok file.path
  | some path => named file.path path

end SettingsFile

/-- Reads a command line behind options that may have named a settings file. -/
def ofWords (file : SettingsFile) : List String → Except UsageError Invocation
  | [] => .error .invalid
  | word :: rest =>
    if word = "--help" ∨ word = "--version" ∨ word.startsWith "-h" ∨ word.startsWith "-V" then do
      -- a waiting path is looked at first, and if it is wrong there is no help
      discard file.settled
      .error .help
    else if word = "-c" ∨ word = "--config" then
      match rest with
      | [] => .error .invalid
      | path :: rest =>
        if isOptionWord path then .error .invalid
        else do ofWords ⟨← file.settled, some path⟩ rest
    else
      match attachedSettingsFile? word with
      | some path => do ofWords ⟨← SettingsFile.named (← file.settled) path, none⟩ rest
      | none => do
        if isOptionWord word then .error .invalid
        else
          let command ← Command.ofWords word rest
          return ⟨← file.settled, command⟩

/-- Reads a command line. -/
def ofArguments (words : List String) : Except UsageError Invocation := ofWords {} words

end Invocation

end OutputIndex
