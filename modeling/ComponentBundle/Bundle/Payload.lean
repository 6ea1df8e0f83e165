import ComponentBundle.Bundle.Variant
import ComponentBundle.Json.Write
import ComponentBundle.Text.Replace

/-!
# Style payload

A bundle file hands its styles over in one statement, which names the bundle by a placeholder
until its id is known.
-/

namespace ComponentBundle

/-- The word that stands for a bundle's id until the id is known. -/
def idPlaceholder : String := "__BUNDLE__ID__"

/-- Puts the id in for every placeholder. -/
def fillBundleId (text id : String) : String := Text.replaceAll text idPlaceholder id

/-- The text of styles in a payload: the scoped one, where it is asked for and there is one. -/
def ModeStyles.payloadText (wantsScoped : Bool) (s : ModeStyles) : String :=
  if wantsScoped then s.scopedText.getD s.plainText else s.plainText

/-- The tags and texts of a payload. Empty texts are left out. -/
def payloadEntries (wantsScoped : Bool) (styles : List ModeStyles) : List (String × String) :=
  (styles.map fun s => (s.tag, s.payloadText wantsScoped)).filter (·.2 ≠ "")

/-- The statement that hands styles over; without any text there is none. -/
def loadStylesStatement (appName : String) (styles : List ModeStyles) (wantsScoped : Bool) :
    String :=
  match payloadEntries wantsScoped styles with
  | [] => ""
  | entries =>
    appName ++ ".loadStyles(" ++ (encode idPlaceholder).write ++ "," ++
      (encode entries).write ++ ");"

end ComponentBundle
