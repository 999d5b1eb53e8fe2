import Janus.Runner.LogLimits

/-! The bytes of `capture_output`, whose counts the log limits are about. -/

namespace Janus.Runner.LogFile

open Janus.Data Janus.Server

structure Capture where
  buffer : Bytes := List.replicate 8192 0
  file : Bytes := []
  written : UInt64 := 0
  read : ℕ := 0
  sent : List LogLimitEvent := []

abbrev ReadResult := Except String Bytes

/-- How `write_all` fails, and how much it has written before it does. -/
structure WriteFault where
  source : String
  written : ℕ

def saturatingSub (a b : UInt64) : UInt64 := if b ≤ a then a - b else 0

section

variable (path : String) (limitBytes : UInt64) (streamName : String)

def limitEvent : LogLimitEvent := ⟨streamName, logLimitMessage streamName limitBytes.toNat⟩

def captureRound (result : ReadResult) (fault : Option WriteFault) (capture : Capture) :
    Capture × Option (Except JobError Unit) :=
  match result with
  | .error source => (capture, some (.error (.readFile path source)))
  | .ok chunk =>
    let read := chunk.length
    let capture :=
      { capture with buffer := chunk ++ capture.buffer.drop read, read := capture.read + read }
    if read = 0 then (capture, some (.ok ()))
    else
      let remaining := (saturatingSub limitBytes capture.written).toNat
      if remaining = 0 then
        ({ capture with sent := capture.sent ++ [limitEvent limitBytes streamName] },
          some (.ok ()))
      else
        let toWrite := min remaining read
        match fault with
        | some fault =>
          ({ capture with file := capture.file ++ (capture.buffer.take toWrite).take fault.written },
            some (.error (.writeFile path fault.source)))
        | none =>
          let capture :=
            { capture with
              file := capture.file ++ capture.buffer.take toWrite
              written := capture.written + UInt64.ofNat toWrite }
          if toWrite < read then
            ({ capture with sent := capture.sent ++ [limitEvent limitBytes streamName] },
              some (.ok ()))
          else (capture, none)

def captureLoop : List (ReadResult × Option WriteFault) → Capture → Capture × Except JobError Unit
  | [], capture => (capture, .ok ())
  | (result, fault) :: rounds, capture =>
    match captureRound path limitBytes streamName result fault capture with
    | (capture, some returned) => (capture, returned)
    | (capture, none) => captureLoop rounds capture

def captureOutput (create : Except String Unit) (rounds : List (ReadResult × Option WriteFault)) :
    Capture × Except JobError Unit :=
  match create with
  | .error source => ({}, .error (.writeFile path source))
  | .ok () => captureLoop path limitBytes streamName rounds {}

end

def stream : List (ReadResult × Option WriteFault) → Bytes
  | [] => []
  | (.error _, _) :: _ => []
  | (.ok [], _) :: _ => []
  | (.ok chunk, _) :: rounds => chunk ++ stream rounds

lemma toNat_saturatingSub (a b : UInt64) : (saturatingSub a b).toNat = a.toNat - b.toNat := by
  unfold saturatingSub
  by_cases h : b ≤ a
  · rw [if_pos h, UInt64.toNat_sub_of_le _ _ h]
  · rw [if_neg h]
    have hlt : a.toNat < b.toNat := Nat.lt_of_not_le fun hle => h (UInt64.le_iff_toNat_le.mpr hle)
    simp only [UInt64.toNat_zero]
    omega

lemma toNat_add_ofNat {limit written : UInt64} {toWrite : ℕ}
    (h : toWrite ≤ limit.toNat - written.toNat) (hwritten : written.toNat ≤ limit.toNat) :
    (written + UInt64.ofNat toWrite).toNat = written.toNat + toWrite := by
  have hlimit := limit.toNat_lt
  rw [UInt64.toNat_add, UInt64.toNat_ofNat', Nat.mod_eq_of_lt (by omega : toWrite < 2 ^ 64),
    Nat.mod_eq_of_lt (by omega)]

section

variable {path : String} {limitBytes : UInt64} {streamName : String}

structure Captured (limitBytes : UInt64) (capture : Capture) (consumed : Bytes) : Prop where
  file : capture.file = consumed
  written : capture.written.toNat = consumed.length
  read : capture.read = consumed.length
  bounded : consumed.length ≤ limitBytes.toNat
  sent : capture.sent = []

structure Completed (limitBytes : UInt64) (streamName : String) (capture : Capture)
    (stream : Bytes) : Prop where
  file : capture.file = stream.take (min capture.read limitBytes.toNat)
  prefix_limit : capture.file = stream.take limitBytes.toNat
  read_le : capture.read ≤ stream.length
  bounded : capture.file.length ≤ limitBytes.toNat
  sent : capture.sent =
    if limitBytes.toNat < stream.length then [limitEvent limitBytes streamName] else []

lemma captured_start : Captured limitBytes {} [] :=
  ⟨rfl, rfl, rfl, Nat.zero_le _, rfl⟩

variable {capture next : Capture} {consumed chunk : Bytes} {fault : Option WriteFault}
variable {returned : Option (Except JobError Unit)} {rounds : List (ReadResult × Option WriteFault)}

lemma take_buffer {toWrite : ℕ} (h : toWrite ≤ chunk.length) (rest : Bytes) :
    (chunk ++ rest).take toWrite = chunk.take toWrite := by
  rw [List.take_append_of_le_length h]

lemma captureRound_cases (hcaptured : Captured limitBytes capture consumed) (hchunk : chunk ≠ [])
    (h : captureRound path limitBytes streamName (.ok chunk) fault capture = (next, returned)) :
    (returned = none ∧ Captured limitBytes next (consumed ++ chunk)) ∨
    (returned = some (.ok ()) ∧ limitBytes.toNat < (consumed ++ chunk).length ∧
      next.file = (consumed ++ chunk).take limitBytes.toNat ∧
      next.read = (consumed ++ chunk).length ∧
      next.sent = [limitEvent limitBytes streamName]) ∨
    (∃ error, returned = some (.error error)) ∧ next.file.length ≤ limitBytes.toNat := by
  obtain ⟨hfile, hwritten, hread, hbounded, hsent⟩ := hcaptured
  have hpos : chunk.length ≠ 0 := fun h => hchunk (List.length_eq_zero_iff.mp h)
  have hremaining : (saturatingSub limitBytes capture.written).toNat =
      limitBytes.toNat - consumed.length := by
    rw [toNat_saturatingSub, hwritten]
  simp only [captureRound, if_neg hpos, hremaining] at h
  by_cases hfull : limitBytes.toNat - consumed.length = 0
  · rw [if_pos hfull] at h
    obtain ⟨rfl, rfl⟩ := Prod.mk.inj h
    have hlength : consumed.length = limitBytes.toNat := by omega
    refine .inr (.inl ⟨rfl, ?_, ?_, ?_, ?_⟩)
    · rw [List.length_append]
      omega
    · rw [← hlength, List.take_left]
      exact hfile
    · rw [List.length_append, ← hread]
    · rw [hsent]
      rfl
  · rw [if_neg hfull] at h
    have htake := take_buffer (Nat.min_le_right (limitBytes.toNat - consumed.length) chunk.length)
      (capture.buffer.drop chunk.length)
    cases fault with
    | some fault =>
      obtain ⟨rfl, rfl⟩ := Prod.mk.inj h
      refine .inr (.inr ⟨⟨_, rfl⟩, ?_⟩)
      simp only [htake, hfile, List.length_append, List.length_take]
      omega
    | none =>
      have hroom : min (limitBytes.toNat - consumed.length) chunk.length ≤
          limitBytes.toNat - capture.written.toNat := by
        rw [hwritten]
        exact Nat.min_le_left _ _
      have hcount := toNat_add_ofNat hroom (hwritten.le.trans hbounded)
      simp only at h
      by_cases hshort : min (limitBytes.toNat - consumed.length) chunk.length < chunk.length
      · rw [if_pos hshort] at h
        obtain ⟨rfl, rfl⟩ := Prod.mk.inj h
        have hmin : min (limitBytes.toNat - consumed.length) chunk.length =
            limitBytes.toNat - consumed.length := by omega
        refine .inr (.inl ⟨rfl, ?_, ?_, ?_, ?_⟩)
        · rw [List.length_append]
          omega
        · simp only [hfile]
          rw [htake, hmin, List.take_append, List.take_of_length_le hbounded]
        · rw [List.length_append, ← hread]
        · rw [hsent]
          rfl
      · rw [if_neg hshort] at h
        obtain ⟨rfl, rfl⟩ := Prod.mk.inj h
        have hmin : min (limitBytes.toNat - consumed.length) chunk.length = chunk.length := by omega
        refine .inl ⟨rfl, ?_, ?_, ?_, ?_, hsent⟩
        · simp only [hfile]
          rw [htake, hmin, List.take_length]
        · simp only
          rw [hcount, hwritten, hmin, List.length_append]
        · rw [List.length_append, ← hread]
        · rw [List.length_append]
          omega

lemma stream_cons_ok {rounds : List (ReadResult × Option WriteFault)} (hchunk : chunk ≠ []) :
    stream ((.ok chunk, fault) :: rounds) = chunk ++ stream rounds := by
  cases chunk with
  | nil => exact absurd rfl hchunk
  | cons byte chunk => rfl

lemma Captured.completed (h : Captured limitBytes capture consumed) :
    Completed limitBytes streamName capture consumed where
  file := by rw [h.read, Nat.min_eq_left h.bounded, List.take_length, h.file]
  prefix_limit := by rw [List.take_of_length_le h.bounded, h.file]
  read_le := h.read.le
  bounded := h.file ▸ h.bounded
  sent := by rw [if_neg (Nat.not_lt.mpr h.bounded), h.sent]

lemma captureRound_end (hcaptured : Captured limitBytes capture consumed)
    (h : captureRound path limitBytes streamName (.ok []) fault capture = (next, returned)) :
    returned = some (.ok ()) ∧ Captured limitBytes next consumed := by
  simp only [captureRound, List.length_nil, if_pos] at h
  obtain ⟨rfl, rfl⟩ := Prod.mk.inj h
  exact ⟨rfl, hcaptured.file, hcaptured.written, hcaptured.read, hcaptured.bounded, hcaptured.sent⟩

lemma captureLoop_ok (hcaptured : Captured limitBytes capture consumed)
    (h : captureLoop path limitBytes streamName rounds capture = (next, .ok ())) :
    Completed limitBytes streamName next (consumed ++ stream rounds) := by
  induction rounds generalizing capture consumed with
  | nil =>
    obtain ⟨rfl, -⟩ := Prod.mk.inj h
    rw [stream, List.append_nil]
    exact hcaptured.completed
  | cons round rounds ih =>
    obtain ⟨result, fault⟩ := round
    rw [captureLoop] at h
    rcases hround : captureRound path limitBytes streamName result fault capture with ⟨after, returned⟩
    rw [hround] at h
    cases result with
    | error source =>
      obtain ⟨-, rfl⟩ := Prod.mk.inj hround
      cases (Prod.mk.inj h).2
    | ok chunk =>
      by_cases hchunk : chunk = []
      · subst hchunk
        obtain ⟨rfl, hend⟩ := captureRound_end hcaptured hround
        obtain ⟨rfl, -⟩ := Prod.mk.inj h
        rw [stream, List.append_nil]
        exact hend.completed
      · rw [stream_cons_ok hchunk, ← List.append_assoc]
        obtain ⟨rfl, hgoes⟩ | ⟨rfl, hover, hfile, hread, hsent⟩ | ⟨⟨error, rfl⟩, -⟩ :=
          captureRound_cases hcaptured hchunk hround
        · exact ih hgoes h
        · obtain ⟨rfl, -⟩ := Prod.mk.inj h
          have htake : (consumed ++ chunk ++ stream rounds).take limitBytes.toNat =
              (consumed ++ chunk).take limitBytes.toNat :=
            List.take_append_of_le_length hover.le
          refine ⟨?_, ?_, ?_, hfile ▸ List.length_take_le _ _, ?_⟩
          · rw [hread, Nat.min_eq_right hover.le, htake, hfile]
          · rw [htake, hfile]
          · rw [hread]
            exact (List.prefix_append _ _).length_le
          · rw [hsent, if_pos]
            exact hover.trans_le (List.prefix_append _ _).length_le
        · cases (Prod.mk.inj h).2

lemma captureLoop_bounded (hcaptured : Captured limitBytes capture consumed) :
    (captureLoop path limitBytes streamName rounds capture).1.file.length ≤ limitBytes.toNat := by
  induction rounds generalizing capture consumed with
  | nil =>
    rw [captureLoop, hcaptured.file]
    exact hcaptured.bounded
  | cons round rounds ih =>
    obtain ⟨result, fault⟩ := round
    rw [captureLoop]
    rcases hround : captureRound path limitBytes streamName result fault capture with ⟨after, returned⟩
    cases result with
    | error source =>
      obtain ⟨rfl, rfl⟩ := Prod.mk.inj hround
      exact hcaptured.file ▸ hcaptured.bounded
    | ok chunk =>
      by_cases hchunk : chunk = []
      · subst hchunk
        obtain ⟨rfl, hend⟩ := captureRound_end hcaptured hround
        exact hend.file ▸ hend.bounded
      · obtain ⟨rfl, hgoes⟩ | ⟨rfl, hover, hfile, hread, hsent⟩ | ⟨⟨error, rfl⟩, hfile⟩ :=
          captureRound_cases hcaptured hchunk hround
        · exact ih hgoes
        · simp only [hfile]
          exact List.length_take_le _ _
        · exact hfile

variable {create : Except String Unit}

/-- However the stream is cut, a capture that returns has kept what the limit allows of it, and has
said so if that is not all. -/
theorem capture_completed
    (h : captureOutput path limitBytes streamName create rounds = (capture, .ok ())) :
    Completed limitBytes streamName capture (stream rounds) := by
  cases create with
  | error source => cases h
  | ok _ => exact captureLoop_ok captured_start h

theorem capture_completed_cut :
    Completed 4 "stdout"
      (captureOutput "stdout.log" 4 "stdout" (.ok ()) [(.ok [1, 2, 3], none), (.ok [4, 5], none)]).1
      [1, 2, 3, 4, 5] :=
  have h : captureOutput "stdout.log" 4 "stdout" (.ok ())
      [(.ok [1, 2, 3], none), (.ok [4, 5], none)] = (_, .ok ()) := rfl
  capture_completed h

theorem capture_bounded :
    (captureOutput path limitBytes streamName create rounds).1.file.length ≤ limitBytes.toNat := by
  cases create with
  | error source => exact Nat.zero_le _
  | ok _ => exact captureLoop_bounded captured_start

def Capture.counts (capture : Capture) (produced : ℕ) (held : Bool) : Runner.Capture where
  produced := produced
  held := held
  read := capture.read
  written := capture.written.toNat

theorem counts_captureRound {produced : ℕ} {held : Bool}
    (hwritten : capture.written.toNat ≤ limitBytes.toNat)
    (h : captureRound path limitBytes streamName (.ok chunk) none capture = (next, returned)) :
    ∃ event, next.sent = capture.sent ++ event.toList ∧
      Runner.captureOutput limitBytes.toNat streamName chunk.length (capture.counts produced held) =
        ({ next.counts produced held with result := returned }, event) := by
  simp only [captureRound, toNat_saturatingSub] at h
  unfold Runner.captureOutput
  by_cases hempty : chunk.length = 0
  · rw [if_pos hempty] at h ⊢
    obtain ⟨rfl, rfl⟩ := Prod.mk.inj h
    exact ⟨none, (List.append_nil _).symm, by simp only [Capture.counts, hempty, Nat.add_zero]⟩
  · rw [if_neg hempty] at h ⊢
    simp only
    by_cases hfull : limitBytes.toNat - (capture.counts produced held).written = 0
    · rw [if_pos hfull]
      rw [if_pos (show limitBytes.toNat - capture.written.toNat = 0 from hfull)] at h
      obtain ⟨rfl, rfl⟩ := Prod.mk.inj h
      exact ⟨_, rfl, rfl⟩
    · rw [if_neg hfull]
      rw [if_neg (show ¬limitBytes.toNat - capture.written.toNat = 0 from hfull)] at h
      have hcount := toNat_add_ofNat
        (Nat.min_le_left (limitBytes.toNat - capture.written.toNat) chunk.length) hwritten
      by_cases hshort : min (limitBytes.toNat - (capture.counts produced held).written)
          chunk.length < chunk.length
      · rw [if_pos hshort]
        rw [if_pos (show min (limitBytes.toNat - capture.written.toNat) chunk.length <
          chunk.length from hshort)] at h
        obtain ⟨rfl, rfl⟩ := Prod.mk.inj h
        exact ⟨_, rfl, by simp only [Capture.counts, hcount]; rfl⟩
      · rw [if_neg hshort]
        rw [if_neg (show ¬min (limitBytes.toNat - capture.written.toNat) chunk.length <
          chunk.length from hshort)] at h
        obtain ⟨rfl, rfl⟩ := Prod.mk.inj h
        exact ⟨none, (List.append_nil _).symm, by simp only [Capture.counts, hcount]⟩

end

end Janus.Runner.LogFile
