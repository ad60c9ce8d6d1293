import ScriptGrammar.Kind

/-!
# Flags

What is noted about a token, about the grammar around a node, and about the node itself. Each is
a record of truth values; `bits` packs it into one number, the first field lowest.
-/

namespace ScriptGrammar

def packBits (bs : List Bool) : Nat := bs.foldr (fun b n => 2 * n + b.toNat) 0

/-- Lexical facts about a token. -/
structure TokenFlags where
  precedingLineBreak : Bool := false
  precedingDocComment : Bool := false
  unterminated : Bool := false
  extendedUnicodeEscape : Bool := false
  scientific : Bool := false
  octal : Bool := false
  hexSpecifier : Bool := false
  binarySpecifier : Bool := false
  octalSpecifier : Bool := false
  containsSeparator : Bool := false
  unicodeEscape : Bool := false
  containsInvalidEscape : Bool := false
  containsLeadingZero : Bool := false
deriving DecidableEq, Inhabited

def TokenFlags.bits (f : TokenFlags) : Nat :=
  packBits [f.precedingLineBreak, f.precedingDocComment, f.unterminated, f.extendedUnicodeEscape,
    f.scientific, f.octal, f.hexSpecifier, f.binarySpecifier, f.octalSpecifier,
    f.containsSeparator, f.unicodeEscape, f.containsInvalidEscape, f.containsLeadingZero]

/-- The grammar a node is read under. -/
structure Context where
  disallowIn : Bool := false
  yield : Bool := false
  decorator : Bool := false
  await : Bool := false
  disallowConditionalTypes : Bool := false
deriving DecidableEq, Inhabited

structure NodeFlags where
  letKind : Bool := false
  constKind : Bool := false
  usingKind : Bool := false
  awaitUsingKind : Bool := false
  nestedNamespace : Bool := false
  namespaceForm : Bool := false
  optionalChain : Bool := false
  globalAugmentation : Bool := false
  context : Context := {}
  /-- A placeholder where a construct was expected. -/
  missing : Bool := false
  /-- A diagnostic was reported at this node. -/
  hasError : Bool := false
  /-- A diagnostic was reported in this node or below it. -/
  containsError : Bool := false
deriving DecidableEq, Inhabited

def NodeFlags.bits (f : NodeFlags) : Nat :=
  packBits [f.letKind, f.constKind, f.usingKind, f.awaitUsingKind, f.nestedNamespace,
    f.namespaceForm, f.optionalChain, f.globalAugmentation, f.context.disallowIn,
    f.context.yield, f.context.decorator, f.context.await, f.context.disallowConditionalTypes,
    f.missing, f.hasError, f.containsError]

/-- A set of modifiers, one bit each. -/
structure ModifierFlags where
  bits : Nat := 0
deriving DecidableEq, Inhabited

namespace ModifierFlags

def union (a b : ModifierFlags) : ModifierFlags := ⟨a.bits ||| b.bits⟩

def async : ModifierFlags := ⟨512⟩

def default : ModifierFlags := ⟨1024⟩

def decorator : ModifierFlags := ⟨32768⟩

def contains (a b : ModifierFlags) : Bool := a.bits &&& b.bits == b.bits

/-- The modifier a keyword stands for; none for any other kind. -/
def ofKind : Kind → ModifierFlags
  | .exportKeyword => ⟨1⟩
  | .declareKeyword => ⟨2⟩
  | .publicKeyword => ⟨4⟩
  | .privateKeyword => ⟨8⟩
  | .protectedKeyword => ⟨16⟩
  | .staticKeyword => ⟨32⟩
  | .readonlyKeyword => ⟨64⟩
  | .accessorKeyword => ⟨128⟩
  | .abstractKeyword => ⟨256⟩
  | .asyncKeyword => async
  | .defaultKeyword => default
  | .constKeyword => ⟨2048⟩
  | .overrideKeyword => ⟨4096⟩
  | .inKeyword => ⟨8192⟩
  | .outKeyword => ⟨16384⟩
  | _ => ⟨0⟩

end ModifierFlags
end ScriptGrammar
