import TemplateInheritance.Context.Basic
import TemplateInheritance.Hash.Sha256
import TemplateInheritance.Value.Text

/-!
# Digests of contexts

A context is addressed by a digest of its bindings in name order. The short digest keeps the
first sixteen hexadecimal digits and writes names as they are, so two contexts can share it; the
full digest quotes the names and keeps every digit. Each is a hash of an encoding, and the
encodings are functions of their own.
-/

namespace TemplateInheritance

namespace Context

/-- The bindings as text: each name in the given writing, a colon, the value in its own, a
semicolon. -/
def encoding (writeName : String → String) (writeValue : Value → String)
    (context : Context) : String :=
  String.join (context.entries.map fun (name, value) ↦
    writeName name ++ ":" ++ writeValue value ++ ";")

/-- The encoding under the short digest, with plain names. -/
def plainEncoding (context : Context) : String := context.encoding id Value.text

/-- The encoding under the full digest, with quoted names. -/
def quotedEncoding (context : Context) : String := context.encoding quoted Value.text

/-- The digest of a context without bindings. -/
def emptyDigest : String := "empty"

/-- How many hexadecimal digits a short digest keeps. -/
def digestLength : Nat := 16

/-- The digest that serves as a part of cache keys. -/
def digest (context : Context) : String :=
  if context.entries.isEmpty then emptyDigest
  else String.ofList
    ((Sha256.hexDigest context.plainEncoding.toUTF8.toList).take digestLength)

/-- The digest that tells contexts apart whose short digests agree. -/
def fullDigest (context : Context) : String :=
  if context.entries.isEmpty then emptyDigest
  else String.ofList (Sha256.hexDigest context.quotedEncoding.toUTF8.toList)

end Context

end TemplateInheritance
