import ComponentBundle.Component
import ComponentBundle.Config
import ComponentBundle.Diagnostic
import ComponentBundle.Loader.Basic
import ComponentBundle.Proofs.SortedMap
import ComponentBundle.Style.Cache
import ComponentBundle.Style.Text

/-!
# Records are read back as they were written

`values_round_trip`: every value that is exchanged as JSON is read back as it was written, and a
value that was read, from whatever spelling, is read again from its written form.

The codec of a whole is lawful when those of its parts are, so a record follows from its fields, and
each type has an instance of `LawfulJsonCodec`. Two records hold a number that must fit 64 bits. For
them the law holds of the values that fit, and no other ones are ever read
(`Config.fits_of_decode`, `SourceStyle.fits_of_decode`).
-/

namespace ComponentBundle

open Json

/-! ## Values that may be absent -/

/-- No value of the type is written as `null`, so an absent one can be told apart. -/
class NeverNull (α : Type) [JsonCodec α] : Prop where
  encode_ne_null (a : α) : encode a ≠ .null

instance : NeverNull String := ⟨fun _ => by rintro ⟨⟩⟩

instance : NeverNull FilePath := ⟨fun _ => by rintro ⟨⟩⟩

instance : NeverNull BundleIds := ⟨fun ids => by cases ids <;> rintro ⟨⟩⟩

theorem decode_option {α : Type} [JsonCodec α] {j : Json} (h : j ≠ .null) :
    (decode j : Option (Option α)) = (decode j : Option α).map some := by
  cases j with
  | null => exact absurd rfl h
  | _ => rfl

instance {α : Type} [JsonCodec α] [LawfulJsonCodec α] [NeverNull α] :
    LawfulJsonCodec (Option α) where
  decode_encode
    | none => rfl
    | some a => by
      show (decode (encode a) : Option (Option α)) = _
      rw [decode_option (NeverNull.encode_ne_null a), LawfulJsonCodec.decode_encode]
      rfl

/-! ## Maps -/

section Maps

variable {α : Type} [JsonCodec α] [LawfulJsonCodec α]

theorem mapM_decode_members (l : List (String × α)) :
    (l.map fun e => (e.1, encode e.2)).mapM
      (fun m : String × Json => (decode m.2 : Option α).map (m.1, ·)) = some l := by
  induction l with
  | nil => rfl
  | cons e l ih => simp [List.mapM_cons, LawfulJsonCodec.decode_encode, ih]

/-- A map holds each key once, so no later member takes the place of an earlier one. -/
instance : LawfulJsonCodec (SortedMap String α) where
  decode_encode m := by
    have hmembers := congrArg (Option.map SortedMap.ofList) (mapM_decode_members m.entries)
    rw [Option.map_some, SortedMap.ofList_entries] at hmembers
    exact hmembers

end Maps

/-! ## Records -/

instance : LawfulJsonCodec Encapsulation := ⟨fun e => by cases e <;> rfl⟩

instance : LawfulJsonCodec DiagnosticLevel := ⟨fun level => by cases level <;> rfl⟩

instance : LawfulJsonCodec BundleIds where
  decode_encode
    | .single _ => rfl
    | .perMode ids => congrArg (Option.map BundleIds.perMode) (LawfulJsonCodec.decode_encode ids)

instance : LawfulJsonCodec StyleSources where
  decode_encode s := by
    unfold encode decode instJsonCodecStyleSources
    dsimp only
    rw [record?_obj rfl, Option.bind_eq_bind, Option.bind_some]
    dsimp only [Slot.ofMember, List.lookup, String.reduceBEq, Slot.orElse]
    simp only [LawfulJsonCodec.decode_encode]
    rfl

instance : LawfulJsonCodec Component where
  decode_encode c := by
    unfold encode decode instJsonCodecComponent
    dsimp only
    rw [record?_obj rfl, Option.bind_eq_bind, Option.bind_some]
    dsimp only [Slot.ofMember, List.lookup, String.reduceBEq, Slot.required, Slot.orElse]
    simp only [LawfulJsonCodec.decode_encode]
    rfl

instance : LawfulJsonCodec ManifestBundle where
  decode_encode b := by
    unfold encode decode instJsonCodecManifestBundle
    dsimp only
    rw [record?_obj rfl, Option.bind_eq_bind, Option.bind_some]
    dsimp only [Slot.ofMember, List.lookup, String.reduceBEq, Slot.required]
    simp only [LawfulJsonCodec.decode_encode]
    rfl

instance : LawfulJsonCodec ModeStyles where
  decode_encode s := by
    unfold encode decode instJsonCodecModeStyles
    dsimp only
    rw [record?_obj rfl, Option.bind_eq_bind, Option.bind_some]
    dsimp only [Slot.ofMember, List.lookup, String.reduceBEq, Slot.required, Slot.nullable]
    simp only [LawfulJsonCodec.decode_encode]
    rfl

instance : LawfulJsonCodec CachedStyle where
  decode_encode s := by
    unfold encode decode instJsonCodecCachedStyle
    dsimp only
    rw [record?_obj rfl, Option.bind_eq_bind, Option.bind_some]
    dsimp only [Slot.ofMember, List.lookup, String.reduceBEq, Slot.nullable]
    simp only [LawfulJsonCodec.decode_encode]
    rfl

instance : LawfulJsonCodec Diagnostic where
  decode_encode d := by
    unfold encode decode instJsonCodecDiagnostic
    dsimp only
    rw [record?_obj rfl, Option.bind_eq_bind, Option.bind_some]
    dsimp only [Slot.ofMember, List.lookup, String.reduceBEq, Slot.required, Slot.nullable]
    simp only [LawfulJsonCodec.decode_encode]
    rfl

instance : LawfulJsonCodec Duration where
  decode_encode d := by
    have hsecs : word? (.nat d.secs) = some d.secs := if_pos d.secs_lt
    have hnanos : word? (.nat d.nanos) = some d.nanos :=
      if_pos (Nat.lt_trans d.nanos_lt (by decide))
    have hbound : d.nanos < nanosBound := Nat.lt_trans d.nanos_lt (by decide)
    unfold encode decode instJsonCodecDuration
    dsimp only
    rw [record?_obj rfl, Option.bind_eq_bind, Option.bind_some]
    dsimp only [Slot.ofMember, List.lookup, String.reduceBEq, Slot.requiredWord]
    rw [hsecs, hnanos, Option.bind_eq_bind, Option.bind_some, Option.bind_some,
      decide_eq_true hbound]
    exact d.ofParts?_secs_nanos

instance : LawfulJsonCodec LoaderOptions where
  decode_encode o := by
    unfold encode decode instJsonCodecLoaderOptions
    dsimp only
    rw [record?_obj rfl, Option.bind_eq_bind, Option.bind_some]
    dsimp only [Slot.ofMember, List.lookup, String.reduceBEq, Slot.orElse]
    simp only [LawfulJsonCodec.decode_encode]
    rfl

instance : LawfulJsonCodec BundleRegistration where
  decode_encode r := by
    unfold encode decode instJsonCodecBundleRegistration
    dsimp only
    rw [record?_obj rfl, Option.bind_eq_bind, Option.bind_some]
    dsimp only [Slot.ofMember, List.lookup, String.reduceBEq, Slot.required, Slot.orElse]
    simp only [LawfulJsonCodec.decode_encode]
    rfl

/-! ## Records with a number of 64 bits -/

def Config.Fits (c : Config) : Prop := c.hashLength < wordBound

def SourceStyle.Fits (s : SourceStyle) : Prop := s.order < wordBound

theorem Config.decode_encode {c : Config} (h : c.Fits) : decode (encode c) = some c := by
  have hlength : word? (.nat c.hashLength) = some c.hashLength := if_pos h
  unfold encode decode instJsonCodecConfig
  dsimp only
  rw [record?_obj rfl, Option.bind_eq_bind, Option.bind_some]
  dsimp only [Slot.ofMember, List.lookup, String.reduceBEq, Slot.orElse, Slot.wordOrElse]
  simp only [LawfulJsonCodec.decode_encode, hlength]
  rfl

theorem SourceStyle.decode_encode {s : SourceStyle} (h : s.Fits) :
    decode (encode s) = some s := by
  have horder : word? (.nat s.order) = some s.order := if_pos h
  unfold encode decode instJsonCodecSourceStyle
  dsimp only
  rw [record?_obj rfl, Option.bind_eq_bind, Option.bind_some]
  dsimp only [Slot.ofMember, List.lookup, String.reduceBEq, Slot.requiredWord, Slot.nullable]
  simp only [LawfulJsonCodec.decode_encode, horder]
  rfl

theorem Json.word?_lt {j : Json} {n : Nat} (h : j.word? = some n) : n < wordBound := by
  unfold word? natBelow? at h
  split at h
  · split at h
    · rename_i hlt
      exact Option.some.inj h ▸ hlt
    · cases h
  · cases h

theorem Config.fits_of_decode {j : Json} {c : Config} (h : decode j = some c) : c.Fits := by
  unfold decode instJsonCodecConfig at h
  simp only [Option.bind_eq_bind, Option.bind_eq_some_iff] at h
  obtain ⟨slot, -, _, -, n, hn, _, -, _, -, _, -, _, -, _, -, _, -, _, -, _, -, hc⟩ := h
  obtain rfl := Option.some.inj hc
  show n < wordBound
  unfold Slot.wordOrElse at hn
  split at hn
  · exact word?_lt hn
  · exact Option.some.inj hn ▸ (by decide : (8 : Nat) < wordBound)

theorem SourceStyle.fits_of_decode {j : Json} {s : SourceStyle} (h : decode j = some s) :
    s.Fits := by
  unfold decode instJsonCodecSourceStyle at h
  simp only [Option.bind_eq_bind, Option.bind_eq_some_iff] at h
  obtain ⟨slot, -, n, hn, _, -, _, -, hs⟩ := h
  obtain rfl := Option.some.inj hs
  show n < wordBound
  unfold Slot.requiredWord at hn
  split at hn
  · exact word?_lt hn
  · cases hn

/-! ## All of them -/

/-- Whether reading a type undoes writing it for the values that fit, and yields no other ones. -/
structure RoundTrips (α : Type) [JsonCodec α] (fits : α → Prop) : Prop where
  /-- Exactly the values that fit are read back as they were written. -/
  read_back : ∀ a : α, decode (encode a) = some a ↔ fits a
  /-- What was read from any JSON value is read again from its written form. -/
  stable : ∀ (j : Json) (a : α), decode j = some a → decode (encode a) = some a

theorem roundTrips_of_fits {α : Type} [JsonCodec α] {fits : α → Prop}
    (hwritten : ∀ a, fits a → decode (encode a) = some a)
    (hread : ∀ (j : Json) (a : α), decode j = some a → fits a) : RoundTrips α fits where
  read_back a := ⟨hread _ a, hwritten a⟩
  stable j a h := hwritten a (hread j a h)

theorem roundTrips_of_lawful (α : Type) [JsonCodec α] [LawfulJsonCodec α] :
    RoundTrips α (fun _ => True) :=
  roundTrips_of_fits (fun a _ => LawfulJsonCodec.decode_encode a) (fun _ _ _ => trivial)

/-- **Reading undoes writing** for every type that is exchanged as JSON. All values of a type are
read back as they were written, but for a length or an order that 64 bits do not hold, which no JSON
value gives either; and what was read once is read again from its written form. -/
theorem values_round_trip :
    RoundTrips Config Config.Fits ∧
    RoundTrips Encapsulation (fun _ => True) ∧
    RoundTrips StyleSources (fun _ => True) ∧
    RoundTrips BundleIds (fun _ => True) ∧
    RoundTrips Component (fun _ => True) ∧
    RoundTrips ManifestBundle (fun _ => True) ∧
    RoundTrips Registry (fun _ => True) ∧
    RoundTrips SourceStyle SourceStyle.Fits ∧
    RoundTrips ModeStyles (fun _ => True) ∧
    RoundTrips CachedStyle (fun _ => True) ∧
    RoundTrips Diagnostic (fun _ => True) ∧
    RoundTrips LoaderOptions (fun _ => True) ∧
    RoundTrips BundleRegistration (fun _ => True) := by
  have hconfig : RoundTrips Config Config.Fits :=
    roundTrips_of_fits (fun _ => Config.decode_encode) (fun _ _ => Config.fits_of_decode)
  have hsource : RoundTrips SourceStyle SourceStyle.Fits :=
    roundTrips_of_fits (fun _ => SourceStyle.decode_encode) (fun _ _ => SourceStyle.fits_of_decode)
  refine ⟨hconfig, ?_, ?_, ?_, ?_, ?_, ?_, hsource, ?_, ?_, ?_, ?_, ?_⟩
  all_goals exact roundTrips_of_lawful _

end ComponentBundle
