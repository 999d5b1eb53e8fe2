import Janus.Web.Routes

/-! What the server takes of a push: the refs that it reads from the text that `git` writes, and the
key that tells one list of refs from another. -/

namespace Janus.Web

open Janus.Concurrency Janus.Data Janus.Server

def PushEventRef.fields (item : PushEventRef) : List String :=
  [item.oldRev, item.newRev, item.refName]

def gitLine (item : PushEventRef) : List Char :=
  item.oldRev.toList ++ ' ' :: (item.newRev.toList ++ ' ' :: item.refName.toList)

def gitText (refs : List PushEventRef) : String :=
  String.ofList (refs.flatMap fun item => gitLine item ++ ['\n'])

/-- The revisions and the names of refs hold neither an ASCII space nor a control character. -/
def WrittenByGit (item : PushEventRef) : Prop :=
  ∀ field ∈ PushEventRef.fields item, field ≠ "" ∧
    ∀ c ∈ field.toList, c ≠ ' ' ∧ 0x20 ≤ c.toNat ∧ c.toNat ≠ 0x7f

def SpaceFree (text : String) : Prop := ∀ c ∈ text.toList, isWhitespace c = false

lemma mem_splitOnP {α : Type} {p : α → Bool} {xs part : List α} (hpart : part ∈ xs.splitOnP p) :
    ∀ x ∈ part, p x = false := by
  induction xs generalizing part with
  | nil =>
    rw [List.splitOnP_nil, List.mem_singleton] at hpart
    simp [hpart]
  | cons x xs ih =>
    rw [List.splitOnP_cons_eq_if_modifyHead] at hpart
    by_cases hx : p x
    · rw [if_pos hx] at hpart
      rcases List.mem_cons.mp hpart with rfl | hpart
      · simp
      · exact ih hpart
    · rw [if_neg hx] at hpart
      obtain ⟨head, tail, hsplit⟩ := List.exists_cons_of_ne_nil (List.splitOnP_ne_nil p xs)
      rw [hsplit] at ih hpart
      rcases List.mem_cons.mp hpart with rfl | hpart
      · intro y hy
        rcases List.mem_cons.mp hy with rfl | hy
        · simpa using hx
        · exact ih List.mem_cons_self y hy
      · exact ih (List.mem_cons_of_mem _ hpart)

lemma spaceFree_of_mem_splitWhitespace {line : List Char} {part : String}
    (hpart : part ∈ splitWhitespace line) : SpaceFree part := by
  obtain ⟨chars, hchars, rfl⟩ := List.mem_map.mp hpart
  intro c hc
  rw [String.toList_ofList] at hc
  exact mem_splitOnP (List.mem_filter.mp hchars).1 c hc

def readPushRef (line : List Char) : Option PushEventRef :=
  match splitWhitespace line with
  | oldRev :: newRev :: refName :: _ => some ⟨oldRev, newRev, refName⟩
  | _ => none

lemma readPushRefs_eq (raw : String) :
    readPushRefs raw = (raw.toList.splitOn '\n').filterMap readPushRef := rfl

lemma spaceFree_of_readPushRef {line : List Char} {item : PushEventRef}
    (hread : readPushRef line = some item) :
    ∀ field ∈ PushEventRef.fields item, SpaceFree field := by
  unfold readPushRef at hread
  split at hread
  · next oldRev newRev refName rest hparts =>
    obtain rfl := Option.some.inj hread
    intro field hfield
    apply spaceFree_of_mem_splitWhitespace
    rw [hparts]
    simp only [PushEventRef.fields, List.mem_cons, List.not_mem_nil, or_false] at hfield
    rcases hfield with rfl | rfl | rfl <;> simp
  · cases hread

lemma splitWhitespace_cons {text : String} (hspace : SpaceFree text) (hne : text ≠ "")
    (rest : List Char) :
    splitWhitespace (text.toList ++ ' ' :: rest) = text :: splitWhitespace rest := by
  have hkept : text.toList.isEmpty = false := by
    simpa [List.isEmpty_eq_false_iff] using hne
  unfold splitWhitespace
  rw [List.splitOnP_append_cons_of_forall_mem hspace ' ' (by decide)]
  simp [hkept]

lemma splitWhitespace_last {text : String} (hspace : SpaceFree text) (hne : text ≠ "") :
    splitWhitespace text.toList = [text] := by
  have hkept : text.toList.isEmpty = false := by
    simpa [List.isEmpty_eq_false_iff] using hne
  unfold splitWhitespace
  rw [List.splitOnP_eq_singleton hspace]
  simp [hkept]

lemma readPushRef_gitLine {item : PushEventRef}
    (hspace : ∀ field ∈ PushEventRef.fields item, SpaceFree field)
    (hne : ∀ field ∈ PushEventRef.fields item, field ≠ "") :
    readPushRef (gitLine item) = some item := by
  simp only [PushEventRef.fields, List.mem_cons, List.not_mem_nil, or_false,
    forall_eq_or_imp, forall_eq] at hspace hne
  unfold readPushRef gitLine
  rw [splitWhitespace_cons hspace.1 hne.1, splitWhitespace_cons hspace.2.1 hne.2.1,
    splitWhitespace_last hspace.2.2 hne.2.2]

lemma newline_notMem_gitLine {item : PushEventRef} (h : WrittenByGit item) :
    '\n' ∉ gitLine item := by
  have hfield : ∀ field ∈ PushEventRef.fields item, '\n' ∉ field.toList := by
    intro field hfield hmem
    have hcontrol := ((h field hfield).2 '\n' hmem).2.1
    exact absurd hcontrol (by decide)
  simp only [PushEventRef.fields, List.mem_cons, List.not_mem_nil, or_false, forall_eq_or_imp,
    forall_eq] at hfield
  simp [gitLine, hfield]

lemma readPushRefs_gitText {refs : List PushEventRef} (h : ∀ item ∈ refs, WrittenByGit item) :
    readPushRefs (gitText refs) = refs.filterMap fun item => readPushRef (gitLine item) := by
  rw [readPushRefs_eq, gitText, String.toList_ofList]
  induction refs with
  | nil => rfl
  | cons item refs ih =>
    have hitem := newline_notMem_gitLine (h item List.mem_cons_self)
    rw [List.flatMap_cons, List.append_assoc, List.singleton_append,
      List.splitOn_append_cons_self_of_not_mem hitem, List.filterMap_cons, List.filterMap_cons,
      ih fun item hmem => h item (List.mem_cons_of_mem _ hmem)]

/-- The refs come out as they went in exactly when none has white space of another kind than those
that `git` keeps out of them. -/
theorem push_refs_read_back_iff {refs : List PushEventRef} (h : ∀ item ∈ refs, WrittenByGit item) :
    readPushRefs (gitText refs) = refs ↔
      ∀ item ∈ refs, ∀ field ∈ PushEventRef.fields item, SpaceFree field := by
  rw [readPushRefs_gitText h]
  constructor
  · intro hread item hitem
    rw [← hread] at hitem
    obtain ⟨written, -, hsome⟩ := List.mem_filterMap.mp hitem
    exact spaceFree_of_readPushRef hsome
  · intro hspace
    refine (List.filterMap_congr fun item hitem => ?_).trans List.filterMap_some
    exact readPushRef_gitLine (hspace item hitem) fun field hfield => (h item hitem field hfield).1

def plainRefs : List PushEventRef :=
  [⟨"0000", "a94a", "refs/heads/main"⟩, ⟨"a94a", "51fe", "refs/heads/größe"⟩]

instance (item : PushEventRef) : Decidable (WrittenByGit item) :=
  decidable_of_iff ((PushEventRef.fields item).all fun field => field ≠ "" ∧
    field.toList.all fun c => c ≠ ' ' ∧ 0x20 ≤ c.toNat ∧ c.toNat ≠ 0x7f)
    (by simp [WrittenByGit])

instance (text : String) : Decidable (SpaceFree text) :=
  decidable_of_iff (text.toList.all fun c => isWhitespace c = false) (by simp [SpaceFree])

theorem push_refs_read_back_plain : readPushRefs (gitText plainRefs) = plainRefs := by
  have hgit : ∀ item ∈ plainRefs, WrittenByGit item := by decide +kernel
  exact (push_refs_read_back_iff hgit).mpr (by decide +kernel)

def spacedRefs : List PushEventRef := [⟨"0000", "a94a", "refs/heads/a\u00a0b"⟩]

theorem spaced_ref_truncated : (∀ item ∈ spacedRefs, WrittenByGit item) ∧
    readPushRefs (gitText spacedRefs) = [⟨"0000", "a94a", "refs/heads/a"⟩] ∧
    readPushRefs (gitText spacedRefs) ≠ spacedRefs := by
  refine ⟨?_, ?_, ?_⟩ <;> decide +kernel

/-- What `event_key` hashes: the fields one after the other. -/
def joinedFields (repoId : String) (refs : List PushEventRef) : Bytes :=
  asBytes repoId ++ refs.flatMap fun item =>
    asBytes item.oldRev ++ asBytes item.newRev ++ asBytes item.refName

/-- `event_key`, of the text of an id. -/
def eventKeyText (sha256Hex : Bytes → String) (repoId : String) (refs : List PushEventRef) : String :=
  sha256Hex (joinedFields repoId refs)

lemma eventKey_eq (app : AppState) (repoId : Id) (refs : List PushEventRef) :
    eventKey app repoId refs = eventKeyText app.sha256Hex (toString repoId) refs := rfl

def fieldLengths (repoId : String) (refs : List PushEventRef) : ℕ × List (ℕ × ℕ × ℕ) :=
  ((asBytes repoId).length, refs.map fun item =>
    ((asBytes item.oldRev).length, (asBytes item.newRev).length, (asBytes item.refName).length))

lemma toList_loop (bytes : ByteArray) (i : ℕ) (read : List UInt8) :
    ByteArray.toList.loop bytes i read = read.reverse ++ bytes.data.toList.drop i := by
  induction hn : bytes.size - i generalizing i read with
  | zero =>
    have hend : bytes.data.toList.length ≤ i := by
      rw [Array.length_toList]
      exact Nat.sub_eq_zero_iff_le.mp hn
    rw [ByteArray.toList.loop, if_neg (by omega), List.drop_eq_nil_of_le hend, List.append_nil]
  | succ n ih =>
    have hlt : i < bytes.size := by omega
    have hlt' : i < bytes.data.toList.length := by
      rw [Array.length_toList]
      exact hlt
    have hget : bytes.get! i = bytes.data.toList[i] := by
      rw [Array.getElem_toList]
      exact getElem!_pos bytes.data i hlt
    rw [ByteArray.toList.loop, if_pos hlt, ih (i + 1) (bytes.get! i :: read) (by omega), hget,
      List.reverse_cons, List.append_assoc, List.singleton_append, List.getElem_cons_drop]

lemma asBytes_eq (text : String) : asBytes text = text.toByteArray.data.toList :=
  (toList_loop text.toByteArray 0 []).trans (by simp)

lemma asBytes_injective : Function.Injective asBytes := by
  intro s t h
  rw [asBytes_eq, asBytes_eq, Array.toList_inj] at h
  exact String.toByteArray_inj.mp (congrArg ByteArray.mk h)

lemma refs_eq_of_joined {refs refs' : List PushEventRef}
    (hjoined : (refs.flatMap fun item =>
        asBytes item.oldRev ++ asBytes item.newRev ++ asBytes item.refName) =
      refs'.flatMap fun item =>
        asBytes item.oldRev ++ asBytes item.newRev ++ asBytes item.refName)
    (hlengths : (refs.map fun item => ((asBytes item.oldRev).length, (asBytes item.newRev).length,
        (asBytes item.refName).length)) =
      refs'.map fun item => ((asBytes item.oldRev).length, (asBytes item.newRev).length,
        (asBytes item.refName).length)) : refs = refs' := by
  induction refs generalizing refs' with
  | nil =>
    cases refs' with
    | nil => rfl
    | cons item refs' => cases hlengths
  | cons item refs ih =>
    cases refs' with
    | nil => cases hlengths
    | cons item' refs' =>
      obtain ⟨hitem, hrest⟩ := List.cons.inj hlengths
      obtain ⟨hold, hnew, hname⟩ : (asBytes item.oldRev).length = (asBytes item'.oldRev).length ∧
          (asBytes item.newRev).length = (asBytes item'.newRev).length ∧
          (asBytes item.refName).length = (asBytes item'.refName).length := by
        simpa using hitem
      rw [List.flatMap_cons, List.flatMap_cons] at hjoined
      obtain ⟨hfields, htail⟩ := List.append_inj hjoined (by simp [hold, hnew, hname])
      obtain ⟨hrevs, hrefName⟩ := List.append_inj hfields (by simp [hold, hnew])
      obtain ⟨holdRev, hnewRev⟩ := List.append_inj hrevs hold
      have hsame : item = item' := by
        cases item
        cases item'
        simp only [PushEventRef.mk.injEq]
        exact ⟨asBytes_injective holdRev, asBytes_injective hnewRev, asBytes_injective hrefName⟩
      rw [hsame, ih htail hrest]

/-- Nothing marks where a field ends: a key identifies its content unless the fields of two contents,
one after the other, are the same text cut in two ways. -/
theorem event_key_identifies_iff {sha256Hex : Bytes → String} {repoId repoId' : String}
    {refs refs' : List PushEventRef}
    (hsha : sha256Hex (joinedFields repoId refs) = sha256Hex (joinedFields repoId' refs') →
      joinedFields repoId refs = joinedFields repoId' refs') :
    (eventKeyText sha256Hex repoId refs = eventKeyText sha256Hex repoId' refs' →
        repoId = repoId' ∧ refs = refs') ↔
      joinedFields repoId refs ≠ joinedFields repoId' refs' ∨
        fieldLengths repoId refs = fieldLengths repoId' refs' := by
  constructor
  · intro h
    by_cases hjoined : joinedFields repoId refs = joinedFields repoId' refs'
    · obtain ⟨rfl, rfl⟩ := h (congrArg sha256Hex hjoined)
      exact .inr rfl
    · exact .inl hjoined
  · intro h hkeys
    have hjoined := hsha hkeys
    obtain ⟨hrepo, hrefs⟩ := Prod.mk.inj (h.resolve_left (not_not.mpr hjoined))
    obtain ⟨hid, hrest⟩ := List.append_inj hjoined hrepo
    exact ⟨asBytes_injective hid, refs_eq_of_joined hrest hrefs⟩

def sampleRepoId : String := "018f6a52-1111-7000-8000-000000000001"

def firstPush : List PushEventRef := [⟨"0000", "a94a", "refs/heads/main"⟩]

def secondPush : List PushEventRef := [⟨"a94a", "51fe", "refs/heads/main"⟩]

def pushHash (bytes : Bytes) : String :=
  if bytes = joinedFields sampleRepoId firstPush then
    "880f685ab15aec51d236ec00a6ca3883503a5a8eb87519c5bfc56c7bcd3a8bb4"
  else if bytes = joinedFields sampleRepoId secondPush then
    "da6a65752b1c48604cf3c12d3feec454da544032f970ec311ef0b64cbca25a55"
  else ""

theorem event_key_identifies_pushes :
    (eventKeyText pushHash sampleRepoId firstPush = eventKeyText pushHash sampleRepoId secondPush →
        sampleRepoId = sampleRepoId ∧ firstPush = secondPush) ↔
      joinedFields sampleRepoId firstPush ≠ joinedFields sampleRepoId secondPush ∨
        fieldLengths sampleRepoId firstPush = fieldLengths sampleRepoId secondPush :=
  event_key_identifies_iff (by decide +kernel)

def triggerRef (commit branch : String) : PushEventRef :=
  ⟨"0000000000000000000000000000000000000000", commit, branch⟩

theorem manual_triggers_share_key :
    manualTriggerRefs ⟨1, "/srv/git/app.git", "main"⟩ (some "0-fix") (some "v1") =
        .ok [triggerRef "v1" "0-fix"] ∧
      manualTriggerRefs ⟨1, "/srv/git/app.git", "main"⟩ (some "-fix") (some "v10") =
        .ok [triggerRef "v10" "-fix"] ∧
      (∀ sha256Hex : Bytes → String,
        eventKeyText sha256Hex sampleRepoId [triggerRef "v1" "0-fix"] =
          eventKeyText sha256Hex sampleRepoId [triggerRef "v10" "-fix"]) ∧
      [triggerRef "v1" "0-fix"] ≠ [triggerRef "v10" "-fix"] := by
  refine ⟨by decide +kernel, by decide +kernel, fun sha256Hex => ?_, by decide⟩
  exact congrArg sha256Hex (by decide +kernel)

end Janus.Web
