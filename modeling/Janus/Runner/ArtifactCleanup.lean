import Janus.Runner.ArtifactStore
import Janus.Runner.Runs

/-! When a clean-up removes every artifact that has expired: the entry that it cannot make out ends
it. -/

namespace Janus.Runner

open Janus.Concurrency Janus.Data Janus.Server

section

variable (codec : ArtifactCodec) (now : String → ℤ)

/-- A directory that holds an artifact whose time is over when it is looked at. -/
def ArtifactRoot.Expired (root : ArtifactRoot) (name : String) : Prop :=
  validateArtifactId name = .ok () ∧ ∃ raw metadata expiresAt,
    root.read name "metadata.json" = some raw ∧ codec.fromSlice raw = .ok metadata ∧
      codec.parseFromRfc3339 metadata.expiresAt = .ok expiresAt ∧ expiresAt ≤ now name

/-- A directory whose name is no artifact id, or whose metadata or time of expiry cannot be parsed. -/
def ArtifactRoot.Malformed (root : ArtifactRoot) (name : String) : Prop :=
  (root.dir? name).isSome ∧ ((∃ error, validateArtifactId name = .error error) ∨
    ∃ raw, root.read name "metadata.json" = some raw ∧
      ((∃ source, codec.fromSlice raw = .error source) ∨
        ∃ metadata source, codec.fromSlice raw = .ok metadata ∧
          codec.parseFromRfc3339 metadata.expiresAt = .error source))

end

section

variable {rt : Runtime} {codec : ArtifactCodec} {now : String → ℤ} {root root' : ArtifactRoot}
variable {name : String} {names : List String}

lemma dir?_of_read {file : String} {raw : Bytes} (h : root.read name file = some raw) :
    (root.dir? name).isSome = true := by
  unfold ArtifactRoot.read at h
  cases hdir : root.dir? name with
  | none =>
    rw [hdir] at h
    cases h
  | some files => rfl

lemma ArtifactRoot.Expired.not_malformed (h : root.Expired codec now name) :
    ¬root.Malformed codec name := by
  obtain ⟨hid, raw, metadata, expiresAt, hraw, hmetadata, hexpiry, -⟩ := h
  rintro ⟨-, ⟨error, herror⟩ | ⟨raw', hraw', hbad⟩⟩
  · cases hid.symm.trans herror
  · obtain rfl := Option.some.inj (hraw.symm.trans hraw')
    obtain ⟨source, hsource⟩ | ⟨metadata', source, hmetadata', hsource⟩ := hbad
    · cases hmetadata.symm.trans hsource
    · obtain rfl := Except.ok.inj (hmetadata.symm.trans hmetadata')
      cases hexpiry.symm.trans hsource

lemma validateArtifactId_error {artifactId : String} {error : ArtifactError}
    (h : validateArtifactId artifactId = .error error) : error = .invalidArtifactId artifactId := by
  unfold validateArtifactId at h
  by_cases hid : validatePrefixedHexId artifactId "art_" = true
  · rw [if_pos hid] at h
    cases h
  · rw [if_neg hid] at h
    exact (Except.error.inj h).symm

lemma cleanup_cons (rt : Runtime) (codec : ArtifactCodec) (now : String → ℤ) (root : ArtifactRoot)
    (name : String) (names : List String) :
    (root.Malformed codec name ∧
        (cleanupExpiredArtifacts rt codec now root (name :: names)).2 = root) ∨
      (root.Expired codec now name ∧
        (cleanupExpiredArtifacts rt codec now root (name :: names)).2 =
          (cleanupExpiredArtifacts rt codec now (root.remove name) names).2) ∨
      (¬root.Malformed codec name ∧ ¬root.Expired codec now name ∧
        (cleanupExpiredArtifacts rt codec now root (name :: names)).2 =
          (cleanupExpiredArtifacts rt codec now root names).2) := by
  cases hdir : root.dir? name with
  | none =>
    refine .inr (.inr ⟨?_, ?_, ?_⟩)
    · rintro ⟨hsome, -⟩
      rw [hdir] at hsome
      cases hsome
    · rintro ⟨-, raw, metadata, expiresAt, hraw, -⟩
      have hsome := dir?_of_read hraw
      rw [hdir] at hsome
      cases hsome
    · simp only [cleanupExpiredArtifacts, hdir]
  | some files =>
    have hsome : (root.dir? name).isSome = true := by rw [hdir]; rfl
    cases hid : validateArtifactId name with
    | error error =>
      obtain rfl := validateArtifactId_error hid
      refine .inl ⟨⟨hsome, .inl ⟨_, hid⟩⟩, ?_⟩
      simp only [cleanupExpiredArtifacts, hdir, loadArtifactRecord, hid]
    | ok _ =>
      cases hraw : root.read name "metadata.json" with
      | none =>
        refine .inr (.inr ⟨?_, ?_, ?_⟩)
        · rintro ⟨-, ⟨error, herror⟩ | ⟨raw, hread, -⟩⟩
          · cases hid.symm.trans herror
          · cases hraw.symm.trans hread
        · rintro ⟨-, raw, metadata, expiresAt, hread, -⟩
          cases hraw.symm.trans hread
        · simp only [cleanupExpiredArtifacts, hdir, loadArtifactRecord, hid, hraw]
      | some raw =>
        cases hslice : codec.fromSlice raw with
        | error source =>
          refine .inl ⟨⟨hsome, .inr ⟨raw, hraw, .inl ⟨source, hslice⟩⟩⟩, ?_⟩
          simp only [cleanupExpiredArtifacts, hdir, loadArtifactRecord, hid, hraw, hslice,
            Except.mapError]
        | ok metadata =>
          cases hexpiry : codec.parseFromRfc3339 metadata.expiresAt with
          | error source =>
            refine .inl ⟨⟨hsome, .inr ⟨raw, hraw, .inr ⟨metadata, source, hslice, hexpiry⟩⟩⟩, ?_⟩
            simp only [cleanupExpiredArtifacts, hdir, loadArtifactRecord, hid, hraw, hslice,
              Except.mapError, ArtifactRecord.isExpired, hexpiry]
          | ok expiresAt =>
            by_cases hlate : expiresAt ≤ now name
            · refine .inr (.inl ⟨⟨hid, raw, metadata, expiresAt, hraw, hslice, hexpiry, hlate⟩, ?_⟩)
              simp only [cleanupExpiredArtifacts, hdir, loadArtifactRecord, hid, hraw, hslice,
                Except.mapError, ArtifactRecord.isExpired, hexpiry, hlate, decide_true]
            · refine .inr (.inr ⟨?_, ?_, ?_⟩)
              · rintro ⟨-, ⟨error, herror⟩ | ⟨raw', hread, hbad⟩⟩
                · cases hid.symm.trans herror
                · obtain rfl := Option.some.inj (hraw.symm.trans hread)
                  obtain ⟨source, hsource⟩ | ⟨metadata', source, hmetadata', hsource⟩ := hbad
                  · cases hslice.symm.trans hsource
                  · obtain rfl := Except.ok.inj (hslice.symm.trans hmetadata')
                    cases hexpiry.symm.trans hsource
              · rintro ⟨-, raw', metadata', expiresAt', hread, hmetadata', hexpiry', hlate'⟩
                obtain rfl := Option.some.inj (hraw.symm.trans hread)
                obtain rfl := Except.ok.inj (hslice.symm.trans hmetadata')
                obtain rfl := Except.ok.inj (hexpiry.symm.trans hexpiry')
                exact hlate hlate'
              · simp only [cleanupExpiredArtifacts, hdir, loadArtifactRecord, hid, hraw, hslice,
                  Except.mapError, ArtifactRecord.isExpired, hexpiry, hlate, decide_false]

end

def Removed (codec : ArtifactCodec) (now : String → ℤ) (root : ArtifactRoot) (listing : List String)
    (name : String) : Prop :=
  root.Expired codec now name ∧
    ∃ pre post, listing = pre ++ name :: post ∧ ∀ other ∈ pre, ¬root.Malformed codec other

section

variable {rt : Runtime} {codec : ArtifactCodec} {now : String → ℤ} {root : ArtifactRoot}
variable {name other : String} {names : List String}

lemma dir?_remove (h : other ≠ name) :
    ArtifactRoot.dir? (root.remove name) other = root.dir? other := by
  unfold ArtifactRoot.dir?
  rw [OrderedMap.get_remove_of_ne h]

lemma expired_remove (h : other ≠ name) :
    ArtifactRoot.Expired codec now (root.remove name) other ↔ root.Expired codec now other := by
  unfold ArtifactRoot.Expired ArtifactRoot.read
  rw [dir?_remove h]

lemma malformed_remove (h : other ≠ name) :
    ArtifactRoot.Malformed codec (root.remove name) other ↔ root.Malformed codec other := by
  unfold ArtifactRoot.Malformed ArtifactRoot.read
  rw [dir?_remove h]

lemma removed_remove (hne : other ≠ name) (hname : name ∉ names) :
    Removed codec now (root.remove name) names other ↔ Removed codec now root names other := by
  have hmalformed : ∀ pre post, names = pre ++ other :: post →
      ((∀ o ∈ pre, ¬ArtifactRoot.Malformed codec (root.remove name) o) ↔
        ∀ o ∈ pre, ¬root.Malformed codec o) := by
    intro pre post hsplit
    refine forall₂_congr fun o ho => not_congr (malformed_remove ?_)
    rintro rfl
    exact hname (hsplit ▸ List.mem_append_left _ ho)
  unfold Removed
  rw [expired_remove hne]
  refine and_congr_right fun _ => exists₂_congr fun pre post => ?_
  exact and_congr_right fun hsplit => hmalformed pre post hsplit

lemma removed_cons (hgood : ¬root.Malformed codec name) (hne : other ≠ name) :
    Removed codec now root (name :: names) other ↔ Removed codec now root names other := by
  refine and_congr_right fun _ => ⟨?_, ?_⟩
  · rintro ⟨pre, post, hsplit, hpre⟩
    cases pre with
    | nil => exact absurd (List.cons.inj hsplit).1 (Ne.symm hne)
    | cons first pre =>
      exact ⟨pre, post, (List.cons.inj hsplit).2, fun o ho => hpre o (List.mem_cons_of_mem _ ho)⟩
  · rintro ⟨pre, post, rfl, hpre⟩
    refine ⟨name :: pre, post, rfl, fun o ho => ?_⟩
    rcases List.mem_cons.mp ho with rfl | ho
    · exact hgood
    · exact hpre o ho

lemma Removed.mem (h : Removed codec now root names other) : other ∈ names := by
  obtain ⟨-, pre, post, rfl, -⟩ := h
  simp

lemma cleanup_get (rt : Runtime) (hnames : names.Nodup) :
    (Removed codec now root names other →
        (cleanupExpiredArtifacts rt codec now root names).2.get other = none) ∧
      (¬Removed codec now root names other →
        (cleanupExpiredArtifacts rt codec now root names).2.get other = root.get other) := by
  induction names generalizing root with
  | nil => exact ⟨fun h => absurd h.mem List.not_mem_nil, fun _ => rfl⟩
  | cons name names ih =>
    obtain ⟨hname, htail⟩ := List.nodup_cons.mp hnames
    obtain ⟨hbad, hcleaned⟩ | ⟨hexpired, hcleaned⟩ | ⟨hgood, hlive, hcleaned⟩ :=
      cleanup_cons rt codec now root name names
    · rw [hcleaned]
      refine ⟨?_, fun _ => rfl⟩
      rintro ⟨hexpired, pre, post, hsplit, hpre⟩
      cases pre with
      | nil =>
        obtain rfl := (List.cons.inj hsplit).1
        exact absurd hbad hexpired.not_malformed
      | cons first pre =>
        obtain rfl := (List.cons.inj hsplit).1
        exact absurd hbad (hpre name List.mem_cons_self)
    · rw [hcleaned]
      by_cases hne : other = name
      · subst hne
        have hkept : ¬Removed codec now (root.remove other) names other := fun h => hname h.mem
        rw [(ih htail).2 hkept, OrderedMap.get_remove_self]
        refine ⟨fun _ => rfl, fun h => absurd ⟨hexpired, [], names, rfl, ?_⟩ h⟩
        simp
      · have hiff : Removed codec now (root.remove name) names other ↔
            Removed codec now root (name :: names) other :=
          (removed_remove hne hname).trans (removed_cons hexpired.not_malformed hne).symm
        refine ⟨fun h => (ih htail).1 (hiff.mpr h), fun h => ?_⟩
        exact ((ih htail).2 (mt hiff.mp h)).trans (OrderedMap.get_remove_of_ne hne)
    · rw [hcleaned]
      by_cases hne : other = name
      · subst hne
        have hkept : ¬Removed codec now root names other := fun h => hname h.mem
        exact ⟨fun h => absurd h.1 hlive, fun _ => (ih htail).2 hkept⟩
      · rw [removed_cons hgood hne]
        exact ih htail

end

/-- The clean-up removes the directories of the expired artifacts, and nothing else. -/
def CleansUp (rt : Runtime) (codec : ArtifactCodec) (now : String → ℤ) (root : ArtifactRoot)
    (listing : List String) : Prop :=
  ∀ name,
    (root.Expired codec now name →
      (cleanupExpiredArtifacts rt codec now root listing).2.get name = none) ∧
    (¬root.Expired codec now name →
      (cleanupExpiredArtifacts rt codec now root listing).2.get name = root.get name)

/-- Every expired artifact is removed unless a malformed directory is listed before one of them. -/
theorem expired_cleaned_iff (rt : Runtime) {codec : ArtifactCodec} (now : String → ℤ)
    {root : ArtifactRoot} {listing : List String} (hlisting : Lists root listing) :
    CleansUp rt codec now root listing ↔
      ∀ pre name post, listing = pre ++ name :: post → root.Expired codec now name →
        ∀ other ∈ pre, ¬root.Malformed codec other := by
  constructor
  · rintro h pre name post rfl hexpired other hother hbad
    have hget : (Removed codec now root _ name → _) ∧ (¬Removed codec now root _ name → _) :=
      cleanup_get rt hlisting.nodup
    have hstays : ¬Removed codec now root (pre ++ name :: post) name := by
      rintro ⟨-, pre', post', hsplit, hpre'⟩
      have honce : name ∉ pre' ++ post' :=
        (List.nodup_cons.mp (List.perm_middle.nodup_iff.mp (hsplit ▸ hlisting.nodup))).1
      obtain ⟨hpre, hpost⟩ := not_or.mp (mt List.mem_append.mpr honce)
      obtain ⟨rfl, -, -⟩ := (List.append_cons_inj_of_notMem hpre hpost).mp hsplit.symm
      exact hpre' other hother hbad
    obtain ⟨-, raw, -, -, hraw, -⟩ := id hexpired
    have hgone : root.get name = none := (hget.2 hstays).symm.trans ((h name).1 hexpired)
    have hsome := dir?_of_read hraw
    rw [ArtifactRoot.dir?, hgone] at hsome
    cases hsome
  · intro h name
    have hget : (Removed codec now root _ name → _) ∧ (¬Removed codec now root _ name → _) :=
      cleanup_get rt hlisting.nodup
    refine ⟨fun hexpired => hget.1 ⟨hexpired, ?_⟩, fun hlive => hget.2 fun hr => hlive hr.1⟩
    have hpresent : root.containsKey name = true := by
      obtain ⟨-, raw, -, -, hraw, -⟩ := hexpired
      have hsome := dir?_of_read hraw
      rw [OrderedMap.containsKey_eq_isSome]
      unfold ArtifactRoot.dir? at hsome
      cases hget : root.get name with
      | none =>
        rw [hget] at hsome
        cases hsome
      | some entry => rfl
    obtain ⟨pre, post, hsplit⟩ := List.append_of_mem (hlisting.mem.mpr hpresent)
    exact ⟨pre, post, hsplit, h pre name post hsplit hexpired⟩

def expiredId : String := "art_018f6a5211117000800000000000ab01"

def expiredRaw : Bytes :=
  utf8 ("\x7b\"artifact_id\":\"" ++ expiredId ++
    "\",\"sha256\":\"\",\"size\":0,\"expires_at\":\"2024-01-01T00:00:00Z\"\x7d")

def expiredCodec : ArtifactCodec where
  toVecPretty _ := expiredRaw
  fromSlice raw :=
    if raw = expiredRaw then .ok ⟨expiredId, "", 0, "2024-01-01T00:00:00Z"⟩
    else .error "expected value at line 1 column 1"
  parseFromRfc3339 text :=
    if text = "2024-01-01T00:00:00Z" then .ok 1704067200 else .error "input contains invalid characters"

def mountedRoot : ArtifactRoot :=
  .ofList [(expiredId, .dir (.ofList [("blob", []), ("metadata.json", expiredRaw)])),
    ("lost+found", .dir .empty)]

def laterNow (_ : String) : ℤ := 1719792000

theorem expired_cleaned_first : CleansUp sampleRuntime expiredCodec laterNow mountedRoot
    [expiredId, "lost+found"] := by
  refine (expired_cleaned_iff sampleRuntime laterNow (by decide +kernel)).mpr ?_
  intro pre name post hsplit hexpired other hother
  rcases pre with _ | ⟨first, _ | ⟨second, pre⟩⟩
  · cases hother
  · -- the entry after the artifact is no artifact
    obtain rfl : "lost+found" = name := (List.cons.inj (List.cons.inj hsplit).2).1
    have hid : validateArtifactId "lost+found" ≠ .ok () := by decide +kernel
    exact absurd hexpired.1 hid
  · have hlength := congrArg List.length hsplit
    simp at hlength

theorem expired_kept_by_lost_found : Lists mountedRoot ["lost+found", expiredId] ∧
    mountedRoot.Expired expiredCodec laterNow expiredId ∧
    ¬CleansUp sampleRuntime expiredCodec laterNow mountedRoot ["lost+found", expiredId] := by
  have hexpired : mountedRoot.Expired expiredCodec laterNow expiredId :=
    ⟨by decide +kernel, expiredRaw, ⟨expiredId, "", 0, "2024-01-01T00:00:00Z"⟩, 1704067200,
      by decide +kernel, by decide +kernel, by decide +kernel, by decide⟩
  refine ⟨by decide +kernel, hexpired, fun h => ?_⟩
  have hgone := (h expiredId).1 hexpired
  have hkept : ((cleanupExpiredArtifacts sampleRuntime expiredCodec laterNow mountedRoot
      ["lost+found", expiredId]).2.get expiredId).isSome = true := by decide +kernel
  rw [hgone] at hkept
  cases hkept

end Janus.Runner
