import ComponentBundle.Loader.Host
import ComponentBundle.Loader.Resolve

/-!
# Bundle loader

The loader finds the bundle that an element needs, requests its file unless a request for the URL
is under way, and makes everyone who waits ready when the bundle registers itself.

* A request that ends, by load, error or time-out, clears the request and nothing else: those who
  wait go on waiting, and a later load requests the file anew.
* A registration installs the styles of the bundle, marks it as loaded, and makes those who wait
  ready in the order in which they came.

Waiters are values of any type `κ`; every operation returns those that it makes ready.
-/

namespace ComponentBundle

inductive RequestOutcome where
  | loaded
  | errored
  | timedOut
  deriving DecidableEq

/-- What a bundle file hands over when it runs. -/
structure BundleRegistration where
  bundleId : String
  /-- Tags and style texts. -/
  styles : List (String × String) := []
  deriving DecidableEq

instance : JsonCodec BundleRegistration where
  encode r := .obj [("bundleId", encode r.bundleId), ("styles", encode r.styles)]
  decode j := do
    let slot ← j.record? ["bundleId", "styles"]
    return {
      bundleId := ← (slot "bundleId").required
      styles := ← (slot "styles").orElse [] }

structure PendingRequest where
  script : ScriptId
  timer : TimerId
  deriving DecidableEq

/-- The state of a loader on a host `σ`, with waiters `κ`. -/
structure Loader (σ κ : Type) where
  host : σ
  registry : Registry
  options : LoaderOptions
  /-- The ids of the bundles that have registered. -/
  loaded : SortedMap String Unit := ∅
  /-- Those who wait for each bundle id, the first one first. -/
  waiters : SortedMap String (List κ) := ∅
  /-- The requests under way, by URL. -/
  inFlight : SortedMap String PendingRequest := ∅
  /-- The style text for the shadow trees of each tag. -/
  templates : SortedMap String String := ∅
  /-- The ids of the style elements in the document. -/
  appended : SortedMap String Unit := ∅

namespace Loader

variable {σ κ : Type} [LoaderHost σ]

/-! ## Looking -/

def bundleUrl (l : Loader σ κ) (id : String) : String := l.options.publicPath ++ bundleFileName id

def isLoaded (l : Loader σ κ) (id : String) : Bool := l.loaded.contains id

def isPending (l : Loader σ κ) (url : String) : Bool := l.inFlight.contains url

def waitersOf (l : Loader σ κ) (id : String) : List κ := (l.waiters.get? id).getD []

def template? (l : Loader σ κ) (tag : String) : Option String := l.templates.get? tag

/-! ## Loading -/

/-- Requests the file of a bundle unless a request for its URL is under way. -/
def request (l : Loader σ κ) (id : String) : Loader σ κ :=
  let url := l.bundleUrl id
  if l.isPending url then l
  else
    let (script, host) := LoaderHost.injectScript l.host url
    let (timer, host) := LoaderHost.startTimer host url l.options.requestTimeout
    { l with host, inFlight := l.inFlight.insert url ⟨script, timer⟩ }

/-- Puts a waiter behind those who wait for a bundle. -/
def enqueue (l : Loader σ κ) (id : String) (waiter : κ) : Loader σ κ :=
  { l with waiters := l.waiters.insert id (l.waitersOf id ++ [waiter]) }

/-- Makes the waiter ready once the bundle of the component in the mode has registered: at once if
it has, else by waiting for it. A load that fails leaves a loader too. -/
def loadBundle (l : Loader σ κ) (c : Component) (mode : Option String) (waiter : κ) :
    Loader σ κ × Except LoaderError (List κ) :=
  match resolveBundleId (LoaderHost.hasNativeShadow l.host) c mode l.options.defaultMode with
  | .error e => (l, .error e)
  | .ok id =>
    if l.isLoaded id then (l, .ok [waiter])
    else ((l.enqueue id waiter).request id, .ok [])

/-- Loads the bundle of the component that is registered for the tag of an element. -/
def loadElement (l : Loader σ κ) (tag : String) (mode : Option String) (waiter : κ) :
    Loader σ κ × Except LoaderError (List κ) :=
  match l.registry.get? tag with
  | none => (l, .error (.unknownComponent tag))
  | some c => l.loadBundle c mode waiter

/-- Clears the request for a URL. A timer that ran out is not cancelled. -/
def completeRequest (l : Loader σ κ) (url : String) (outcome : RequestOutcome) : Loader σ κ :=
  match l.inFlight.get? url with
  | none => l
  | some pending =>
    let host :=
      if outcome = .timedOut then l.host else LoaderHost.cancelTimer l.host pending.timer
    { l with
      host := LoaderHost.removeScript host pending.script
      inFlight := l.inFlight.erase url }

/-! ## Registering -/

/-- Adds a text behind those of the same tag, or as the first one of a new tag. -/
def addEntry (entries : List (String × String)) (tag text : String) : List (String × String) :=
  match entries with
  | [] => [(tag, text)]
  | (t, joined) :: rest =>
    if t = tag then (t, joined ++ text) :: rest else (t, joined) :: addEntry rest tag text

/-- The texts of each tag joined, in the order in which the tags first appear. -/
def groupByTag (styles : List (String × String)) : List (String × String) :=
  styles.foldl (fun entries s => addEntry entries s.1 s.2) []

/-- Whether the tag of an entry is registered and its component is drawn in a native shadow tree. -/
def isShadowEntry (l : Loader σ κ) (entry : String × String) : Bool :=
  (l.registry.get? entry.1).any (usesShadowDom (LoaderHost.hasNativeShadow l.host))

/-- Whether the tag of an entry is registered and its component is drawn in the document. -/
def isDocumentEntry (l : Loader σ κ) (entry : String × String) : Bool :=
  (l.registry.get? entry.1).any (!usesShadowDom (LoaderHost.hasNativeShadow l.host) ·)

/-- Installs the styles of a bundle. The first template of a tag stays, and a bundle adds one style
element to the document at most. -/
def installStyles (l : Loader σ κ) (r : BundleRegistration) : Loader σ κ :=
  let entries := groupByTag r.styles
  let templates := (entries.filter l.isShadowEntry).foldl
    (fun m e => m.insertIfNew e.1 e.2) l.templates
  let text := String.join ((entries.filter l.isDocumentEntry).map (·.2))
  let id := "style-" ++ r.bundleId
  if text = "" ∨ l.appended.contains id then { l with templates }
  else
    { l with
      templates
      appended := l.appended.insert id ()
      host := LoaderHost.appendStyle l.host ⟨id, text⟩ }

/-- Takes the registration of a bundle: installs its styles, marks it as loaded, and makes those
who wait for it ready. -/
def registerBundle (l : Loader σ κ) (r : BundleRegistration) : Loader σ κ × List κ :=
  let l := l.installStyles r
  ({ l with
      loaded := l.loaded.insert r.bundleId ()
      waiters := l.waiters.erase r.bundleId },
    l.waitersOf r.bundleId)

end Loader

end ComponentBundle
