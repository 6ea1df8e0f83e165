import ComponentBundle.Error
import ComponentBundle.Json.Codec
import ComponentBundle.Text.Lowercase

/-!
# Build configuration

What a build is told: how bundles are named, what is minified, which output trees are written.
A configuration has no `problem?` when its namespace is an identifier and, if names are hashed,
their length lies between 4 and 64 digits.
-/

namespace ComponentBundle

structure Config where
  /-- Name bundles by their content instead of their first component. -/
  hashFileNames : Bool := false
  /-- The number of digits of a hashed name. -/
  hashLength : Nat := 8
  minifyStyles : Bool := false
  minifyScripts : Bool := false
  /-- Write the tree of the web application. -/
  writesWww : Bool := true
  /-- Write the tree of the distribution. -/
  writesDist : Bool := false
  /-- The name of the application, which its global object carries. -/
  appName : String := "App"
  buildDir : FilePath := ⟨"www/build"⟩
  distDir : FilePath := ⟨"dist"⟩
  /-- The text of a banner in front of every bundle file. -/
  preamble : Option String := none
  deriving DecidableEq

inductive ConfigProblem where
  | appNameNotIdentifier (appName : String)
  | hashLengthOutOfRange (length : Nat)
  deriving DecidableEq

/-- The fewest digits a hashed name may have. -/
def minHashLength : Nat := 4

/-- The number of hexadecimal digits of a digest. -/
def maxHashLength : Nat := 64

def ConfigProblem.reason : ConfigProblem → String
  | appNameNotIdentifier appName =>
    "namespace \"" ++ appName ++ "\" must be a valid JavaScript identifier"
  | hashLengthOutOfRange length =>
    "hashedFileNameLength must be between " ++ Nat.repr minHashLength ++ " and " ++
      Nat.repr maxHashLength ++ ", got " ++ Nat.repr length

namespace Config

instance : Inhabited Config := ⟨{}⟩

def startsIdentifier (c : Char) : Bool := c.isAlpha || c == '_' || c == '$'

def continuesIdentifier (c : Char) : Bool := c.isAlphanum || c == '_' || c == '$'

/-- Whether a text is an identifier of ASCII letters, digits, `_` and `$`. -/
def isIdentifier (s : String) : Bool :=
  match s.toList with
  | [] => false
  | c :: rest => startsIdentifier c && rest.all continuesIdentifier

/-- The first problem of a configuration; the namespace is looked at before the length. -/
def problem? (config : Config) : Option ConfigProblem :=
  if !isIdentifier config.appName then some (.appNameNotIdentifier config.appName)
  else if config.hashFileNames &&
      !(minHashLength ≤ config.hashLength && config.hashLength ≤ maxHashLength) then
    some (.hashLengthOutOfRange config.hashLength)
  else none

/-- The configuration itself, or the error of its first problem. -/
def validate (config : Config) : Except BundleError Config :=
  match config.problem? with
  | some problem => .error (.config problem.reason)
  | none => .ok config

theorem validate_eq_ok {config c : Config} :
    config.validate = .ok c ↔ config.problem? = none ∧ c = config := by
  unfold validate
  cases h : config.problem? with
  | some problem => simp
  | none => simp [eq_comm]

/-- The directory below each output tree that holds the bundle files. -/
def outputDir (config : Config) : FilePath := ⟨Text.lowercase config.appName⟩

end Config

/-! ## JSON -/

instance : JsonCodec Config where
  encode c := .obj [("hashFileNames", encode c.hashFileNames),
    ("hashedFileNameLength", .nat c.hashLength), ("minifyCss", encode c.minifyStyles),
    ("minifyJs", encode c.minifyScripts), ("generateWWW", encode c.writesWww),
    ("generateDistribution", encode c.writesDist), ("namespace", encode c.appName),
    ("buildDir", encode c.buildDir), ("distDir", encode c.distDir),
    ("preamble", encode c.preamble)]
  decode j := do
    let slot ← j.record? ["hashFileNames", "hashedFileNameLength", "minifyCss", "minifyJs",
      "generateWWW", "generateDistribution", "namespace", "buildDir", "distDir", "preamble"]
    let base : Config := {}
    return {
      hashFileNames := ← (slot "hashFileNames").orElse base.hashFileNames
      hashLength := ← (slot "hashedFileNameLength").wordOrElse base.hashLength
      minifyStyles := ← (slot "minifyCss").orElse base.minifyStyles
      minifyScripts := ← (slot "minifyJs").orElse base.minifyScripts
      writesWww := ← (slot "generateWWW").orElse base.writesWww
      writesDist := ← (slot "generateDistribution").orElse base.writesDist
      appName := ← (slot "namespace").orElse base.appName
      buildDir := ← (slot "buildDir").orElse base.buildDir
      distDir := ← (slot "distDir").orElse base.distDir
      preamble := ← (slot "preamble").orElse base.preamble }

/-- The valid configuration that a JSON value holds. -/
def Config.ofJson (j : Json) : Except BundleError Config :=
  match (decode j : Option Config) with
  | some config => config.validate
  | none => .error .json

end ComponentBundle
