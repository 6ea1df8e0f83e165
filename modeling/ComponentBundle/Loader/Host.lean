import ComponentBundle.Loader.Options

/-!
# Hosts of a loader

A loader touches the document and the clock through a host alone. `DocumentLog` is a host that
numbers scripts and timers with one counter and records what it is asked to do.
-/

namespace ComponentBundle

structure ScriptId where
  value : Nat
  deriving DecidableEq

structure TimerId where
  value : Nat
  deriving DecidableEq

/-- A style element for the document. -/
structure StyleElement where
  id : String
  text : String
  deriving DecidableEq

/-- What a loader asks of its host; `σ` is the state of the host. -/
class LoaderHost (σ : Type) where
  hasNativeShadow : σ → Bool
  injectScript : σ → String → ScriptId × σ
  removeScript : σ → ScriptId → σ
  /-- Starts a timer that reports a time-out for the URL when it runs out. -/
  startTimer : σ → String → Duration → TimerId × σ
  cancelTimer : σ → TimerId → σ
  appendStyle : σ → StyleElement → σ

/-! ## A host that records -/

/-- Something that a host was asked to do. -/
inductive HostEvent where
  | injectScript (script : ScriptId) (url : String)
  | removeScript (script : ScriptId)
  | startTimer (timer : TimerId) (url : String) (timeout : Duration)
  | cancelTimer (timer : TimerId)
  | appendStyle (style : StyleElement)
  deriving DecidableEq

/-- A host that records what it is asked to do. -/
structure DocumentLog where
  nativeShadow : Bool
  /-- The number given out last. -/
  lastId : Nat := 0
  events : List HostEvent := []
  deriving DecidableEq

namespace DocumentLog

def record (d : DocumentLog) (e : HostEvent) : DocumentLog := { d with events := d.events ++ [e] }

instance : LoaderHost DocumentLog where
  hasNativeShadow d := d.nativeShadow
  injectScript d url :=
    let script : ScriptId := ⟨d.lastId + 1⟩
    (script, { d with lastId := d.lastId + 1 }.record (.injectScript script url))
  removeScript d script := d.record (.removeScript script)
  startTimer d url timeout :=
    let timer : TimerId := ⟨d.lastId + 1⟩
    (timer, { d with lastId := d.lastId + 1 }.record (.startTimer timer url timeout))
  cancelTimer d timer := d.record (.cancelTimer timer)
  appendStyle d style := d.record (.appendStyle style)

end DocumentLog

end ComponentBundle
