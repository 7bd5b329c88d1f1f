import ProgramGraph.Digest.Sha256

/-!
# ProgramGraph.Digest.Fingerprint

Short digests over a list of texts.

* `preimage`    — the bytes that are digested: the texts in UTF-8 with one NUL byte between neighbours.
* `fingerprint` — the first sixteen hexadecimal digits of the SHA-256 of the preimage.
-/

namespace ProgramGraph.Digest

/-- The texts in UTF-8 with one NUL byte between neighbours. -/
def preimage : List String → List UInt8
  | [] => []
  | [part] => utf8 part
  | part :: rest => utf8 part ++ 0 :: preimage rest

def fingerprintLength : Nat := 16

/-- The first sixteen hexadecimal digits of the SHA-256 of the preimage. -/
def fingerprint (parts : List String) : String :=
  String.ofList ((sha256Hex (preimage parts)).toList.take fingerprintLength)

end ProgramGraph.Digest
