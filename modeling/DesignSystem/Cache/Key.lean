import DesignSystem.Digest.Blake3
import DesignSystem.Schema.Encoding

/-!
# Cache keys

The key of a transformation names the schema and the platform, and holds a hash of all that the
transformation depends on.
-/

set_option autoImplicit false

namespace DesignSystem

/-- The key of a transformation. -/
structure CacheKey where
  schemaId : String
  platform : PlatformId
  digest : Blake3.Digest
  deriving DecidableEq

namespace CacheKey

/-- The bytes of a text. -/
def bytesOf (s : String) : List UInt8 := s.toUTF8.data.toList

/-- What keys are made for. -/
def purpose : String := "prism:transform:v1"

/-- The parts of a key that are hashed. -/
def parts (s : Schema) (platform : PlatformId) (options : TransformOptions) : List String :=
  [purpose, platform.text, s.toJson.compact, options.toJson.compact]

/-- The bytes that are hashed: the parts with a zero between them. -/
def content (s : Schema) (platform : PlatformId) (options : TransformOptions) : List UInt8 :=
  List.intercalate [0] ((parts s platform options).map bytesOf)

/-- The key of a schema, a platform and options. -/
def ofRequest (s : Schema) (platform : PlatformId) (options : TransformOptions) : CacheKey :=
  ⟨s.id, platform, Blake3.digest (content s platform options)⟩

/-- A key as text, with the first digits of the hash. -/
def text (k : CacheKey) : String :=
  k.schemaId ++ "/" ++ k.platform.text ++ "@" ++ .ofList (k.digest.hex.toList.take 12)

end CacheKey

end DesignSystem
