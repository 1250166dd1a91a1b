import Raqet.Check

/-!
# Target addresses

The address of a portal, with the credentials for it (`TargetAddress`), and its textual
form `[<username>:<password>@]<portal>`.
-/

namespace Raqet

/-- A `TargetAddress`. -/
structure TargetAddress where
  portalUrl : String
  username : String
  password : String
  deriving DecidableEq

namespace TargetAddress

/-- `new TargetAddress(portalUrl, username, password)`. -/
def new (portalUrl username password : String) : Except Exn TargetAddress := do
  let _ ← argNotEmpty "portalUrl" portalUrl
  return ⟨portalUrl, username, password⟩

/-- `new TargetAddress(portalUrlWithCredentials)`. The portal starts after the last at
    sign, the password after the first colon; `substring` throws where there is no colon,
    or where it comes after the at sign. -/
def ofString (portalUrlWithCredentials : String) : Except Exn TargetAddress := do
  let _ ← argNotEmpty "portalUrl" portalUrlWithCredentials
  let text := portalUrlWithCredentials.toList
  if '@' ∈ text then
    let atIndex := text.length - 1 - text.reverse.idxOf '@'
    let colonIndex := text.idxOf ':'
    if colonIndex < atIndex then
      .ok ⟨String.ofList (text.drop (atIndex + 1)), String.ofList (text.take colonIndex),
        String.ofList ((text.take atIndex).drop (colonIndex + 1))⟩
    else .error (.indexOutOfBounds none)
  else .ok ⟨portalUrlWithCredentials, "", ""⟩

example : (ofString "user:pass:word@portal:3260").toOption =
    some ⟨"portal:3260", "user", "pass:word"⟩ := by decide +kernel

end TargetAddress

end Raqet
