import ComponentBundle.Json.Codec

/-!
# Settings of the loader

* `Duration` : whole seconds that fit 64 bits and less than a second of nanoseconds.
-/

namespace ComponentBundle

def nanosPerSecond : Nat := 1000000000

/-- The number of values of the 32 bits that nanoseconds are written in. -/
def nanosBound : Nat := 4294967296

structure Duration where
  secs : Nat
  nanos : Nat
  secs_lt : secs < Json.wordBound := by decide
  nanos_lt : nanos < nanosPerSecond := by decide
  deriving DecidableEq

/-- The span of some seconds and nanoseconds, if its seconds fit 64 bits. -/
def Duration.ofParts? (secs nanos : Nat) : Option Duration :=
  if h : secs + nanos / nanosPerSecond < Json.wordBound then
    some ⟨secs + nanos / nanosPerSecond, nanos % nanosPerSecond, h, Nat.mod_lt _ (by decide)⟩
  else none

theorem Duration.ofParts?_secs_nanos (d : Duration) : ofParts? d.secs d.nanos = some d := by
  have hdiv : d.secs + d.nanos / nanosPerSecond = d.secs := by
    rw [Nat.div_eq_of_lt d.nanos_lt, Nat.add_zero]
  have hmod : d.nanos % nanosPerSecond = d.nanos := Nat.mod_eq_of_lt d.nanos_lt
  have hlt : d.secs + d.nanos / nanosPerSecond < Json.wordBound := by rw [hdiv]; exact d.secs_lt
  rw [ofParts?, dif_pos hlt]
  simp only [hdiv, hmod]

structure LoaderOptions where
  /-- What stands in front of every file name in a request. -/
  publicPath : String := ""
  /-- The mode of elements that carry none. -/
  defaultMode : Option String := none
  requestTimeout : Duration := { secs := 120, nanos := 0 }
  deriving DecidableEq

/-! ## JSON -/

/-- Exactly the two fields; nanoseconds may exceed a second and are carried. -/
instance : JsonCodec Duration where
  encode d := .obj [("secs", .nat d.secs), ("nanos", .nat d.nanos)]
  decode j := do
    let names := ["secs", "nanos"]
    let slot ← j.record? names
    let known := match j with
      | .obj members => members.all fun m => names.contains m.1
      | _ => true
    let secs ← (slot "secs").requiredWord
    let nanos ← (slot "nanos").requiredWord
    if known && nanos < nanosBound then Duration.ofParts? secs nanos else none

instance : JsonCodec LoaderOptions where
  encode o := .obj [("publicPath", encode o.publicPath), ("defaultMode", encode o.defaultMode),
    ("requestTimeout", encode o.requestTimeout)]
  decode j := do
    let slot ← j.record? ["publicPath", "defaultMode", "requestTimeout"]
    let base : LoaderOptions := {}
    return {
      publicPath := ← (slot "publicPath").orElse base.publicPath
      defaultMode := ← (slot "defaultMode").orElse base.defaultMode
      requestTimeout := ← (slot "requestTimeout").orElse base.requestTimeout }

end ComponentBundle
