import ChuMicro.Repl.Follow
import ChuMicro.Repl.PatternLineEndings

/-!
# Following a board that sends CR LF

Two runs of `tail` side by side: one receives a text, the other the text with CR LF, in the same
chunks. Both windows hold the end of what came since the last soft reboot. The window over the text
with CR LF reaches back less far, which matters for a safe-mode banner alone: the other failures are
found as soon as their header is there.

## Main definitions

* `Repl.TailAgrees` — both runs return the same.
* `Repl.EndingsAgree` — both detect the same, and return the same.
* `Repl.HasLongBanner` — a safe-mode banner that is too long for one of the windows.
* `Repl.Sync` — the two detectors between two chunks.

## Main results

* `Repl.Sync.feed` — one chunk fails in both runs or keeps them in step.
* `Repl.endingsAgree_iff` — line endings do not matter exactly for texts without a traceback,
  without a second hard fault and without such a banner.
-/

namespace ChuMicro.Repl

/-! ## Windows -/

section Window

variable {α : Type} {front more word : List α} {n : ℕ}

/-- The window is the end of what came. -/
lemma rtake_isSuffix (front : List α) (n : ℕ) : front.rtake n <:+ front := List.drop_suffix _ _

/-- The size of what the window holds. -/
lemma length_rtake (front : List α) (n : ℕ) : (front.rtake n).length = min n front.length := by
  rw [List.rtake, List.length_drop]
  omega

/-- A short end lies in the window. -/
lemma isSuffix_rtake (h : word <:+ front) (hlen : word.length ≤ n) : word <:+ front.rtake n := by
  refine List.suffix_of_suffix_length_le h (rtake_isSuffix front n) ?_
  rw [length_rtake]
  exact le_min hlen h.length_le

/-- Trimming before and after new input is trimming after it. -/
lemma rtake_rtake_append (front more : List α) (n : ℕ) :
    (front.rtake n ++ more).rtake n = (front ++ more).rtake n := by
  have hsuffix : (front.rtake n ++ more).rtake n <:+ front ++ more := by
    obtain ⟨before, hbefore⟩ := rtake_isSuffix front n
    exact (rtake_isSuffix _ n).trans ⟨before, by rw [← List.append_assoc, hbefore]⟩
  have hlen : ((front.rtake n ++ more).rtake n).length = ((front ++ more).rtake n).length := by
    simp only [length_rtake, List.length_append]
    omega
  exact (List.suffix_of_suffix_length_le hsuffix (rtake_isSuffix _ n) hlen.le).eq_of_length hlen

/-- **A short word that new input completes** is found in the window and the new input. -/
lemma isInfix_rtake_append (h : word <:+: front ++ more) (hfront : ¬ word <:+: front)
    (hlen : word.length ≤ n) : word <:+: front.rtake n ++ more := by
  obtain ⟨before, after, hword⟩ := h
  rw [List.append_assoc] at hword
  rcases List.append_eq_append_iff.mp hword with ⟨gap, rfl, hgap⟩ | ⟨gap, rfl, hgap⟩
  · -- the word begins in what came before
    have hshort : gap.length ≤ n := by
      by_contra hlong
      rcases List.append_eq_append_iff.mp hgap with ⟨beyond, rfl, -⟩ | ⟨beyond, rfl, -⟩
      · exact hfront ⟨before, beyond, List.append_assoc _ _ _⟩
      · rw [List.length_append] at hlen
        omega
    obtain ⟨left, hleft⟩ := isSuffix_rtake (List.suffix_append before gap) hshort
    exact ⟨left, after, by rw [← hleft, List.append_assoc, List.append_assoc, ← hgap]⟩
  · exact ⟨front.rtake n ++ gap, after, by rw [hgap]; simp only [List.append_assoc]⟩

end Window

/-! ## The text with CR LF since the last soft reboot -/

section LeavesSame

variable {text text' word : Str}

/-- A word stands in both texts or in none. -/
lemma LeavesSame.isInfix_iff (h : LeavesSame text text') (hword : Plain word) :
    word <:+: text' ↔ word <:+: text := by
  rcases h with rfl | rfl
  · exact isInfix_crlf_iff hword
  · rw [isInfix_crlf_iff hword, List.infix_cons_iff]
    refine ⟨fun h => h.resolve_left fun hfront => ?_, .inr⟩
    obtain ⟨c, rest, rfl⟩ := List.exists_cons_of_ne_nil hword.ne_nil
    exact hword.lf (List.mem_cons.mpr (.inl (List.cons_prefix_cons.mp hfront).1.symm))

/-- More text comes with CR LF. -/
lemma LeavesSame.append (h : LeavesSame text text') (more : Str) :
    LeavesSame (text ++ more) (text' ++ crlf more) := by
  rcases h with rfl | rfl
  · exact .inl (crlf_append text more).symm
  · exact .inr (crlf_append ('\n' :: text) more).symm

/-- The text with CR LF ends with the text with CR LF. -/
lemma LeavesSame.isSuffix (h : LeavesSame text text') : crlf text <:+ text' := by
  rcases h with rfl | rfl
  · exact List.suffix_rfl
  · exact List.suffix_append ['\r', '\n'] _

/-- No LF without its CR. -/
lemma LeavesSame.not_lf_isInfix (h : LeavesSame text text') {c : Char} (hc : c ≠ '\r') :
    ¬ [c, '\n'] <:+: text' := by
  rcases h with rfl | rfl
  · exact not_lf_isInfix_crlf hc _
  · exact not_lf_isInfix_crlf hc _

/-- **A word found in the text with CR LF** is found in the text, with what follows it. -/
lemma LeavesSame.exists_of_append (h : LeavesSame text text') (hword : Plain word)
    {before rest : Str} (htext : text' = before ++ (word ++ rest)) :
    ∃ more, word ++ more <:+ text ∧ rest = crlf more := by
  rcases h with rfl | rfl
  · obtain ⟨first, more, rfl, -, hrest⟩ := exists_of_crlf_append hword htext
    exact ⟨more, List.suffix_append _ _, hrest⟩
  · obtain ⟨first, more, hfirst, -, hrest⟩ := exists_of_crlf_append hword htext
    refine ⟨more, ?_, hrest⟩
    cases first with
    | nil =>
      obtain ⟨c, rest, rfl⟩ := List.exists_cons_of_ne_nil hword.ne_nil
      exact absurd (List.mem_cons.mpr (.inl (List.cons.inj hfirst).1)) hword.lf
    | cons c first =>
      rw [(List.cons.inj hfirst).2]
      exact List.suffix_append _ _

end LeavesSame

variable {text kept whole : Str}

/-- What was kept is the end of the text. -/
lemma SinceReboot.isSuffix (h : SinceReboot text kept) : kept <:+ text := by
  obtain ⟨-, rfl⟩ | ⟨before, rest, rfl, -, rfl⟩ := h
  · exact List.suffix_rfl
  · have hdrop : dropNewline rest <:+ rest := by
      rw [dropNewline]
      split_ifs
      · exact List.tail_suffix rest
      · exact List.suffix_rfl
    exact hdrop.trans ((List.suffix_append _ _).trans (List.suffix_append _ _))

/-- **The last banner is the last.** Two ways to cut a text after a banner, with none in what
follows, are one: banners do not overlap. -/
lemma rest_unique {before before' rest rest' : Str}
    (h : before ++ (SOFT_REBOOT_BANNER ++ rest) = before' ++ (SOFT_REBOOT_BANNER ++ rest'))
    (hrest : ¬ HasSoftReboot rest) (hrest' : ¬ HasSoftReboot rest') : rest = rest' := by
  have hbanner : SOFT_REBOOT_BANNER = 'M' :: SOFT_REBOOT_BANNER.tail := by decide
  have honce : 'M' ∉ SOFT_REBOOT_BANNER.tail := by decide
  -- the second banner begins where the first does
  have hsame : ∀ {gap rest rest' : Str}, ¬ HasSoftReboot rest →
      SOFT_REBOOT_BANNER ++ rest = gap ++ (SOFT_REBOOT_BANNER ++ rest') → rest = rest' := by
    intro gap rest rest' hnot hgap
    cases gap with
    | nil => exact List.append_cancel_left hgap
    | cons c gap =>
      rw [hbanner, List.cons_append, List.cons_append] at hgap
      rcases List.append_eq_append_iff.mp (List.cons.inj hgap).2 with
        ⟨beyond, rfl, hbeyond⟩ | ⟨beyond, htail, hbeyond⟩
      · exact absurd ⟨beyond, rest', by rw [hbeyond, List.append_assoc, ← hbanner]⟩ hnot
      · cases beyond with
        | nil =>
          refine absurd ⟨[], rest', ?_⟩ hnot
          rw [List.nil_append] at hbeyond
          rw [← hbeyond, List.nil_append, ← hbanner]
        | cons d beyond =>
          rw [List.cons_append] at hbeyond
          rw [(List.cons.inj hbeyond).1, htail] at honce
          simp at honce
  rcases List.append_eq_append_iff.mp h with ⟨gap, -, hgap⟩ | ⟨gap, -, hgap⟩
  · exact hsame hrest hgap
  · exact (hsame hrest' hgap).symm

/-- What came since the last soft reboot is determined. -/
lemma SinceReboot.unique {kept' : Str} (h : SinceReboot text kept) (h' : SinceReboot text kept') :
    kept = kept' := by
  obtain ⟨hnot, rfl⟩ | ⟨before, rest, htext, hrest, rfl⟩ := h
  · obtain ⟨-, rfl⟩ | ⟨before, rest, htext, -, -⟩ := h'
    · rfl
    · exact absurd ⟨before, rest, by rw [htext, List.append_assoc]⟩ hnot
  · obtain ⟨hnot, rfl⟩ | ⟨before', rest', htext', hrest', rfl⟩ := h'
    · exact absurd ⟨before, rest, by rw [htext, List.append_assoc]⟩ hnot
    · rw [rest_unique (htext.symm.trans htext') hrest hrest']

/-- **Both texts since the last soft reboot.** -/
lemma SinceReboot.leavesSame {text' kept' : Str} (hsame : LeavesSame text text')
    (h : SinceReboot text kept) (h' : SinceReboot text' kept') : LeavesSame kept kept' := by
  obtain ⟨hnot, rfl⟩ | ⟨before, rest, rfl, hrest, rfl⟩ := h
  · have hnot' : ¬ HasSoftReboot text' := by
      rwa [HasSoftReboot, hsame.isInfix_iff plain_softReboot]
    rw [h'.unique (.inl ⟨hnot', rfl⟩)]
    exact hsame
  · obtain ⟨before', hbefore'⟩ : ∃ before', text' =
        before' ++ (SOFT_REBOOT_BANNER ++ crlf rest) := by
      obtain ⟨left, hleft⟩ := hsame.isSuffix
      refine ⟨left ++ crlf before, ?_⟩
      rw [← hleft, crlf_append, crlf_append, crlf_of_notMem plain_softReboot.lf, List.append_assoc]
    have hrest' : ¬ HasSoftReboot (crlf rest) := by
      rwa [HasSoftReboot, isInfix_crlf_iff plain_softReboot]
    rw [h'.unique (.inr ⟨before', crlf rest, hbefore', hrest', rfl⟩), dropNewline_crlf]
    exact leavesSame_dropNewline rest

/-- **The window does not change** what the window holds after a soft reboot. -/
lemma SinceReboot.of_window {front more : Str} {n : ℕ} (hfront : ¬ HasSoftReboot front)
    (hn : SOFT_REBOOT_BANNER.length ≤ n) (h : SinceReboot (front.rtake n ++ more) kept) :
    ∃ whole, SinceReboot (front ++ more) whole ∧ kept.rtake n = whole.rtake n := by
  obtain ⟨hnot, rfl⟩ | ⟨before, rest, htext, hrest, rfl⟩ := h
  · refine ⟨front ++ more, .inl ⟨fun hreboot => hnot ?_, rfl⟩, rtake_rtake_append front more n⟩
    exact isInfix_rtake_append hreboot hfront hn
  · obtain ⟨left, hleft⟩ := rtake_isSuffix front n
    refine ⟨dropNewline rest, .inr ⟨left ++ before, rest, ?_, hrest, rfl⟩, rfl⟩
    rw [← hleft, List.append_assoc, htext, List.append_assoc]

/-! ## Failures in the windows -/

/-- `StreamingPatternDetector().buffer_limit`. -/
def BUFFER_LIMIT : ℕ := 8 * 1024

/-- A safe-mode banner with no other inside. -/
def IsInnerBanner (banner : Str) : Prop :=
  IsSafeModeBanner banner ∧ ∀ other, other <:+: banner → IsSafeModeBanner other → other = banner

/-- **A banner that is too long for one window**: up to some place in it the text fits into the
window, and the text with CR LF does not. -/
def HasLongBanner (text : Str) : Prop :=
  ∃ first second, first ++ second <:+: text ∧ second ≠ [] ∧ IsInnerBanner (first ++ second) ∧
    ¬ HasHardFault (first ++ second) ∧ ¬ HasSoftReboot first ∧ first.length ≤ BUFFER_LIMIT ∧
    BUFFER_LIMIT < (crlf first).length

/-- A part of a text without a long banner has none. -/
lemma HasLongBanner.mono (h : HasLongBanner text) (hpart : text <:+: whole) :
    HasLongBanner whole := by
  obtain ⟨first, second, hpiece, hrest⟩ := h
  exact ⟨first, second, hpiece.trans hpart, hrest⟩

/-- A part of a text without a traceback has none. -/
lemma HasTraceback.mono (h : HasTraceback text) (hpart : text <:+: whole) : HasTraceback whole := by
  obtain ⟨before, frames, c, rest, hne, hlines, hc, rfl⟩ := h
  obtain ⟨left, right, rfl⟩ := hpart
  exact ⟨left ++ before, frames, c, rest ++ right, hne, hlines, hc,
    by simp only [List.append_assoc, List.cons_append]⟩

/-- A part of a text without a safe-mode banner has none. -/
lemma HasSafeMode.mono (h : HasSafeMode text) (hpart : text <:+: whole) : HasSafeMode whole := by
  obtain ⟨banner, hbanner, hpiece⟩ := h
  exact ⟨banner, hbanner, hpiece.trans hpart⟩

/-- A banner stays one with CR LF. -/
lemma IsSafeModeBanner.crlf {banner : Str} (h : IsSafeModeBanner banner) :
    IsSafeModeBanner (crlf banner) := by
  obtain ⟨reason, rfl⟩ := h
  refine ⟨Repl.crlf reason, ?_⟩
  rw [crlf_append, crlf_append, crlf_of_notMem plain_safeModeStart.lf,
    crlf_of_notMem plain_safeModeEnd.lf]

/-- **Every banner has one inside with no other inside.** -/
lemma HasSafeMode.exists_inner (h : HasSafeMode text) :
    ∃ banner, IsInnerBanner banner ∧ banner <:+: text := by
  obtain ⟨banner, hbanner, hpiece⟩ := h
  induction hlen : banner.length using Nat.strong_induction_on generalizing banner with
  | _ n ih =>
    by_cases hinner : IsInnerBanner banner
    · exact ⟨banner, hinner, hpiece⟩
    · simp only [IsInnerBanner, not_and, not_forall] at hinner
      obtain ⟨other, hother, hbanner', hne⟩ := hinner hbanner
      have hle := hother.length_le
      have hlt : other.length ≠ banner.length := fun heq => hne (hother.eq_of_length heq)
      exact ih other.length (by omega) other hbanner' (hother.trans hpiece) rfl

/-- No traceback is found where every LF has its CR. -/
lemma not_hasTraceback_of_not_lf (h : ¬ [':', '\n'] <:+: text) : ¬ HasTraceback text := by
  rintro ⟨before, frames, c, rest, -, -, -, rfl⟩
  have hheader : [':', '\n'] <:+: TRACEBACK_HEADER := by decide
  refine h (hheader.trans ⟨before, frames.flatten ++ c :: rest, List.append_assoc _ _ _⟩)

/-- **The two detectors between two chunks**: both windows are over what came since the last soft
reboot, and hold no failure. -/
structure Sync (kept : Str) (detector detector' : StreamingPatternDetector) : Prop where
  limit : detector.bufferLimit = BUFFER_LIMIT
  limit' : detector'.bufferLimit = BUFFER_LIMIT
  buffer : detector.buffer = kept.rtake BUFFER_LIMIT
  buffer' : ∃ kept', LeavesSame kept kept' ∧ detector'.buffer = kept'.rtake BUFFER_LIMIT
  notSoftReboot : ¬ HasSoftReboot kept
  notHardFault : ¬ HasHardFault kept
  notSafeMode : ¬ HasSafeMode detector.buffer

/-- Two new detectors. -/
lemma sync_new : Sync [] .new .new where
  limit := rfl
  limit' := rfl
  buffer := rfl
  buffer' := ⟨[], .inl rfl, rfl⟩
  notSoftReboot := fun h => plain_softReboot.ne_nil (List.infix_nil.mp h)
  notHardFault := fun h => plain_hardFault.ne_nil (List.infix_nil.mp h)
  notSafeMode := by
    rintro ⟨banner, ⟨reason, rfl⟩, hpiece⟩
    exact plain_safeModeStart.ne_nil (List.append_eq_nil_iff.mp (List.infix_nil.mp hpiece)).1

section Step

variable {kept kept' text : Str}

/-- **A hard fault** is in both windows with the new text or in none. -/
lemma hasHardFault_window_iff (text : Str) (hsame : LeavesSame kept kept')
    (hkept : ¬ HasHardFault kept) :
    (HasHardFault (kept.rtake BUFFER_LIMIT ++ text) ↔ HasHardFault (kept ++ text)) ∧
      (HasHardFault (kept'.rtake BUFFER_LIMIT ++ crlf text) ↔ HasHardFault (kept ++ text)) := by
  have hwindow : ∀ {front more : Str}, ¬ HasHardFault front →
      (HasHardFault (front.rtake BUFFER_LIMIT ++ more) ↔ HasHardFault (front ++ more)) := by
    intro front more hfront
    constructor
    · intro h
      obtain ⟨left, hleft⟩ := rtake_isSuffix front BUFFER_LIMIT
      refine h.trans (List.IsSuffix.isInfix ⟨left, ?_⟩)
      rw [← List.append_assoc, hleft]
    · exact fun h => isInfix_rtake_append h hfront (by decide)
  refine ⟨hwindow hkept, ?_⟩
  have hkept' : ¬ HasHardFault kept' := by
    rwa [HasHardFault, hsame.isInfix_iff plain_hardFault]
  rw [hwindow hkept', HasHardFault, (hsame.append text).isInfix_iff plain_hardFault]
  rfl

/-- **A banner in the window over the text with CR LF** is in the other window.

**Proof sketch.** The end of the text that begins with the banner is not longer than with CR LF. -/
lemma hasSafeMode_window (text : Str) (hsame : LeavesSame kept kept')
    (h : HasSafeMode (kept'.rtake BUFFER_LIMIT ++ crlf text)) :
    HasSafeMode (kept.rtake BUFFER_LIMIT ++ text) := by
  obtain ⟨-, ⟨reason', rfl⟩, before, after, hwindow⟩ := h
  obtain ⟨left, hleft⟩ := rtake_isSuffix kept' BUFFER_LIMIT
  have htext : kept' ++ crlf text =
      left ++ before ++ (SAFE_MODE_START ++ (reason' ++ (SAFE_MODE_END ++ after))) := by
    rw [← hleft, List.append_assoc, ← hwindow]
    simp only [List.append_assoc]
  obtain ⟨more, hsuffix, hmore⟩ := (hsame.append text).exists_of_append plain_safeModeStart htext
  obtain ⟨reason, rest, rfl, -, -⟩ := exists_of_crlf_append plain_safeModeEnd hmore.symm
  have hbanner : HasSafeMode (SAFE_MODE_START ++ (reason ++ (SAFE_MODE_END ++ rest))) :=
    ⟨_, ⟨reason, rfl⟩, [], rest, by simp only [List.append_assoc, List.nil_append]⟩
  have hlen : (crlf (SAFE_MODE_START ++ (reason ++ (SAFE_MODE_END ++ rest)))).length ≤
      BUFFER_LIMIT + (crlf text).length := by
    have hle := congrArg List.length hwindow
    have hrtake := length_rtake kept' BUFFER_LIMIT
    rw [crlf_append, ← hmore, crlf_of_notMem plain_safeModeStart.lf]
    simp only [List.length_append] at hle ⊢
    omega
  generalize SAFE_MODE_START ++ (reason ++ (SAFE_MODE_END ++ rest)) = suffix at hsuffix hbanner hlen
  obtain ⟨front, hfront⟩ := hsuffix
  rcases List.append_eq_append_iff.mp hfront with ⟨gap, rfl, rfl⟩ | ⟨gap, -, rfl⟩
  · -- the banner begins before the new text
    have hle := length_le_length_crlf gap
    rw [crlf_append, List.length_append] at hlen
    obtain ⟨left, hleft⟩ := isSuffix_rtake (List.suffix_append front gap) (n := BUFFER_LIMIT)
      (by omega)
    exact hbanner.mono (List.IsSuffix.isInfix ⟨left, by rw [← hleft, List.append_assoc]⟩)
  · refine hbanner.mono (List.IsSuffix.isInfix ?_)
    exact (List.suffix_append gap suffix).trans (List.suffix_append _ _)

/-- **A banner in the window** is in the window over the text with CR LF, or there is a failure in
both, or it is too long. -/
lemma hasSafeMode_window_crlf (hsame : LeavesSame kept kept') (hreboot : ¬ HasSoftReboot kept)
    (hhard : ¬ HasHardFault (kept ++ text)) (hlong : ¬ HasLongBanner (kept ++ text))
    (hbuffer : ¬ HasSafeMode (kept.rtake BUFFER_LIMIT))
    (h : HasSafeMode (kept.rtake BUFFER_LIMIT ++ text)) :
    HasSafeMode (kept'.rtake BUFFER_LIMIT ++ crlf text) := by
  obtain ⟨banner, hinner, before, after, hwindow⟩ := h.exists_inner
  have hout : ¬ banner <:+: kept.rtake BUFFER_LIMIT := fun hin =>
    hbuffer ⟨banner, hinner.1, hin⟩
  rw [List.append_assoc] at hwindow
  rcases List.append_eq_append_iff.mp hwindow with ⟨first, hfirst, hrest⟩ | ⟨gap, -, hgap⟩
  · rcases List.append_eq_append_iff.mp hrest with ⟨beyond, rfl, -⟩ | ⟨second, rfl, rfl⟩
    · -- it would lie in the buffer
      refine absurd ⟨before, beyond, ?_⟩ hout
      rw [hfirst, List.append_assoc]
    · have hsuffix : first <:+ kept :=
        (hfirst ▸ List.suffix_append before first).trans (rtake_isSuffix kept BUFFER_LIMIT)
      have hpiece : first ++ second <:+: kept ++ (second ++ after) := by
        obtain ⟨left, rfl⟩ := hsuffix
        exact ⟨left, after, by simp only [List.append_assoc]⟩
      have hsecond : second ≠ [] := by
        rintro rfl
        refine hout ⟨before, [], ?_⟩
        rw [hfirst, List.append_nil, List.append_nil]
      by_cases hfits : (crlf first).length ≤ BUFFER_LIMIT
      · have hfirst' : crlf first <:+ kept' := by
          obtain ⟨left, rfl⟩ := hsuffix
          exact (crlf_append left first ▸ List.suffix_append _ _).trans hsame.isSuffix
        obtain ⟨left, hleft⟩ := isSuffix_rtake hfirst' hfits
        refine ⟨crlf (first ++ second), hinner.1.crlf, left, crlf after, ?_⟩
        rw [← hleft]
        simp only [crlf_append, List.append_assoc]
      · refine absurd ⟨first, second, hpiece, hsecond, hinner, fun hfault => ?_, fun h => ?_, ?_,
          not_le.mp hfits⟩ hlong
        · exact hhard (hfault.trans hpiece)
        · exact hreboot (h.trans hsuffix.isInfix)
        · have hlen := congrArg List.length hfirst
          rw [length_rtake, List.length_append] at hlen
          omega
  · refine ⟨crlf banner, hinner.1.crlf, kept'.rtake BUFFER_LIMIT ++ crlf gap, crlf after, ?_⟩
    rw [hgap]
    simp only [crlf_append, List.append_assoc]

/-- **Failures correspond.** -/
lemma fails_window_iff (text : Str) (hsame : LeavesSame kept kept')
    (hreboot : ¬ HasSoftReboot kept) (hkept : ¬ HasHardFault kept)
    (hbuffer : ¬ HasSafeMode (kept.rtake BUFFER_LIMIT))
    (htraceback : ¬ HasTraceback (kept ++ text)) (hlong : ¬ HasLongBanner (kept ++ text)) :
    Fails (kept'.rtake BUFFER_LIMIT ++ crlf text) ↔ Fails (kept.rtake BUFFER_LIMIT ++ text) := by
  obtain ⟨hhard, hhard'⟩ := hasHardFault_window_iff text hsame hkept
  have hwindow : ¬ HasTraceback (kept.rtake BUFFER_LIMIT ++ text) := by
    obtain ⟨left, hleft⟩ := rtake_isSuffix kept BUFFER_LIMIT
    refine fun h => htraceback (h.mono (List.IsSuffix.isInfix ⟨left, ?_⟩))
    rw [← List.append_assoc, hleft]
  have hwindow' : ¬ HasTraceback (kept'.rtake BUFFER_LIMIT ++ crlf text) := by
    obtain ⟨left, hleft⟩ := rtake_isSuffix kept' BUFFER_LIMIT
    refine not_hasTraceback_of_not_lf fun h => ?_
    refine (hsame.append text).not_lf_isInfix (c := ':') (by decide)
      (h.trans (List.IsSuffix.isInfix ⟨left, ?_⟩))
    rw [← List.append_assoc, hleft]
  constructor
  · rintro (h | h | h)
    · exact absurd h hwindow'
    · exact .inr (.inl (hasSafeMode_window text hsame h))
    · exact .inr (.inr (hhard.mpr (hhard'.mp h)))
  · rintro (h | h | h)
    · exact absurd h hwindow
    · by_cases hfault : HasHardFault (kept ++ text)
      · exact .inr (.inr (hhard'.mpr hfault))
      · exact .inr (.inl (hasSafeMode_window_crlf hsame hreboot hfault hlong hbuffer h))
    · exact .inr (.inr (hhard'.mpr (hhard.mp h)))

end Step

/-- **One chunk without a failure** keeps the detectors in step. -/
theorem Sync.feed {detector detector' : StreamingPatternDetector} (h : Sync kept detector detector')
    (htext : text ≠ []) (hfails : ¬ Fails (detector.buffer ++ text))
    (hfails' : ¬ Fails (detector'.buffer ++ crlf text)) :
    ∃ more, more <:+ kept ++ text ∧
      Sync more (detector.feed text).2 (detector'.feed (crlf text)).2 := by
  obtain ⟨kept', hsame, hbuffer'⟩ := h.buffer'
  simp only [Fails, not_or] at hfails hfails'
  have htext' : crlf text ≠ [] := fun hnil => htext (crlf_eq_nil_iff.mp hnil)
  obtain ⟨window, hwindow, hkeeps, hlimit⟩ := detector.feed_spec htext
    hfails.1 hfails.2.1 hfails.2.2
  obtain ⟨window', hwindow', hkeeps', hlimit'⟩ := detector'.feed_spec htext'
    hfails'.1 hfails'.2.1 hfails'.2.2
  have hinside := hwindow.isSuffix
  rw [h.limit] at hkeeps hlimit
  rw [h.limit'] at hkeeps' hlimit'
  rw [h.buffer] at hwindow
  rw [hbuffer'] at hwindow'
  have hreboot' : ¬ HasSoftReboot kept' := by
    rw [HasSoftReboot, hsame.isInfix_iff plain_softReboot]
    exact h.notSoftReboot
  obtain ⟨more, hmore, heq⟩ := hwindow.of_window h.notSoftReboot (by decide)
  obtain ⟨more', hmore', heq'⟩ := hwindow'.of_window hreboot' (by decide)
  refine ⟨more, hmore.isSuffix, hlimit, hlimit', hkeeps.trans heq,
    ⟨more', hmore.leavesSame (hsame.append text) hmore', hkeeps'.trans heq'⟩, hmore.notMem,
    fun hfault => ?_, fun hsafe => ?_⟩
  · have hwhole := hfault.trans hmore.isSuffix.isInfix
    rw [h.buffer] at hfails
    exact hfails.2.2 ((hasHardFault_window_iff text hsame h.notHardFault).1.mpr hwhole)
  · rw [hkeeps] at hsafe
    exact hfails.2.1 (hsafe.mono ((rtake_isSuffix window _).trans hinside).isInfix)

/-! ## Both runs -/

/-- What the board sends with CR LF. -/
def Read.crlf : Read → Read
  | .chunk data => .chunk (crlfBytes data)
  | .interrupted => .interrupted
  | .dropped reconnect => .dropped reconnect

/-- **Both runs return the same**, however the text is cut into chunks and whatever happens to the
link meanwhile. -/
def TailAgrees (text : Str) : Prop :=
  ∀ (reconnects : Bool) (reads : List Read), received reconnects reads = text →
    tail true reconnects (reads.map Read.crlf) = tail true reconnects reads

/-- **Line endings do not matter** for a text. -/
def EndingsAgree (text : Str) : Prop := SameDetected text ∧ TailAgrees text

/-- **Two runs in step** return the same.

**Proof sketch.** Induction on what is read. A chunk fails in both runs or keeps the detectors in
step; when the port is opened anew both start over. -/
lemma tailLoop_agrees (htraceback : ¬ HasTraceback whole) (hlong : ¬ HasLongBanner whole)
    (reconnects : Bool) (reads : List Read) {decoder : Utf8StreamDecoder}
    {detector detector' : StreamingPatternDetector} (hdecoder : 0x0A ∉ decoder.buffer)
    (hsync : Sync kept detector detector')
    (hwhole : kept ++ receivedFrom reconnects decoder reads <:+: whole) :
    tailLoop true reconnects decoder detector' (reads.map Read.crlf) =
      tailLoop true reconnects decoder detector reads := by
  induction reads generalizing kept decoder detector detector' with
  | nil => rfl
  | cons read reads ih =>
    cases read with
    | interrupted => rfl
    | dropped reconnect =>
      cases reconnects with
      | false => rfl
      | true =>
        cases reconnect with
        | givenUp => rfl
        | interrupted => rfl
        | reopened =>
          exact ih List.not_mem_nil sync_new ((List.suffix_append kept _).isInfix.trans hwhole)
    | chunk data =>
      obtain ⟨hdecode, hpending⟩ := decode_crlfBytes hdecoder data
      rw [receivedFrom, ← List.append_assoc] at hwhole
      rw [List.map_cons, Read.crlf]
      by_cases hnil : (decoder.decode data).1 = []
      · have hnil' : (decoder.decode (crlfBytes data)).1 = [] := by rw [hdecode, hnil]; rfl
        rw [tailLoop_of_nil hnil, tailLoop_of_nil hnil', hdecode]
        rw [hnil, List.append_nil] at hwhole
        exact ih hpending hsync hwhole
      · have hsome' : (decoder.decode (crlfBytes data)).1 ≠ [] := by
          rw [hdecode]
          exact fun h => hnil (crlf_eq_nil_iff.mp h)
        have hpart := (List.prefix_append _ _).isInfix.trans hwhole
        obtain ⟨kept', hsame, hbuffer'⟩ := hsync.buffer'
        have hiff := fails_window_iff (decoder.decode data).1 hsame hsync.notSoftReboot
          hsync.notHardFault (hsync.buffer ▸ hsync.notSafeMode) (fun h => htraceback (h.mono hpart))
          (fun h => hlong (h.mono hpart))
        rw [← hbuffer', ← hsync.buffer] at hiff
        by_cases hfails : Fails (detector.buffer ++ (decoder.decode data).1)
        · rw [tailLoop_of_fails hnil hfails, tailLoop_of_fails hsome']
          rw [hdecode]
          exact hiff.mpr hfails
        · have hfails' := fun h => hfails (hiff.mp h)
          obtain ⟨more, hmore, hsync'⟩ := hsync.feed hnil hfails hfails'
          rw [tailLoop_of_not_fails hnil hfails, tailLoop_of_not_fails hsome' (by rwa [hdecode]),
            hdecode]
          refine ih hpending hsync' (List.IsInfix.trans ?_ hwhole)
          obtain ⟨left, hleft⟩ := hmore
          exact List.IsSuffix.isInfix ⟨left, by rw [← List.append_assoc, hleft]⟩

/-- **Both runs return the same** for a text without a traceback and without a long banner. -/
lemma tailAgrees_of_not (htraceback : ¬ HasTraceback text) (hlong : ¬ HasLongBanner text) :
    TailAgrees text := by
  intro reconnects reads hreads
  exact tailLoop_agrees htraceback hlong reconnects reads List.not_mem_nil sync_new
    (hreads ▸ List.infix_rfl)

/-! ## A banner that is too long -/

/-- A text over a link that drops after every character. -/
def shred (text : Str) : List Read :=
  text.flatMap fun c => [.chunk (String.utf8EncodeChar c), .dropped .reopened]

/-- A text of two characters holds no failure. -/
lemma not_fails_of_length (h : text.length ≤ 2) : ¬ Fails text := by
  have hlong : ∀ {word : Str}, word <:+: text → word.length ≤ 2 := fun hword =>
    hword.length_le.trans h
  rintro (⟨before, frames, c, rest, -, -, -, rfl⟩ | ⟨-, ⟨reason, rfl⟩, hpiece⟩ | hpiece)
  · have hheader : TRACEBACK_HEADER <:+:
        before ++ (TRACEBACK_HEADER ++ (frames.flatten ++ c :: rest)) :=
      ⟨before, frames.flatten ++ c :: rest, List.append_assoc _ _ _⟩
    exact absurd (hlong hheader) (by decide)
  · exact absurd (hlong ((List.prefix_append SAFE_MODE_START _).isInfix.trans hpiece)) (by decide)
  · exact absurd (hlong hpiece) (by decide)

/-- A piece too short to fail, and a link that drops after it. -/
lemma tailLoop_short {data : List UInt8}
    (hdecode : Utf8StreamDecoder.new.decode data = (text, .new)) (htext : text ≠ [])
    (hlen : text.length ≤ 2) (reads : List Read) :
    tailLoop true true .new .new (.chunk data :: .dropped .reopened :: reads) =
      tailLoop true true .new .new reads := by
  have hfirst : (Utf8StreamDecoder.new.decode data).1 = text := by rw [hdecode]
  have hfails : ¬ Fails (StreamingPatternDetector.new.buffer ++ text) := not_fails_of_length hlen
  rw [tailLoop_of_not_fails (hfirst ▸ htext) (hfirst ▸ hfails)]
  rfl

/-- What the decoder makes of encoded text with CR LF. -/
lemma decode_encoded_crlf (h : text ≠ []) :
    Utf8StreamDecoder.new.decode (crlfBytes (text.flatMap String.utf8EncodeChar)) =
      (crlf text, .new) := by
  have hempty : 0x0A ∉ Utf8StreamDecoder.new.buffer := List.not_mem_nil
  rw [(decode_crlfBytes hempty _).1, decode_encoded h]

/-- **A shredded text** is received and never fails, with either line ending. -/
lemma shred_spec (text : Str) (reads : List Read) :
    receivedFrom true .new (shred text ++ reads) = text ++ receivedFrom true .new reads ∧
      tailLoop true true .new .new (shred text ++ reads) = tailLoop true true .new .new reads ∧
      tailLoop true true .new .new ((shred text ++ reads).map Read.crlf) =
        tailLoop true true .new .new (reads.map Read.crlf) := by
  induction text with
  | nil => exact ⟨rfl, rfl, rfl⟩
  | cons c text ih =>
    obtain ⟨hreceived, htail, htail'⟩ := ih
    have hone : [c] ≠ [] := List.cons_ne_nil c []
    have hone' : crlf [c] ≠ [] := fun h => hone (crlf_eq_nil_iff.mp h)
    have hlen : (crlf [c]).length ≤ 2 := by
      by_cases hc : c = '\n'
      · rw [hc]
        exact le_rfl
      · rw [crlf_cons hc]
        exact Nat.le_succ 1
    have hdecode := decode_encoded hone
    have hdecode' := decode_encoded_crlf hone
    rw [List.flatMap_singleton] at hdecode hdecode'
    have hshred : shred (c :: text) ++ reads =
        .chunk (String.utf8EncodeChar c) :: .dropped .reopened :: (shred text ++ reads) := rfl
    rw [hshred]
    refine ⟨?_, ?_, ?_⟩
    · rw [receivedFrom, hdecode, receivedFrom, if_pos rfl, hreceived]
      rfl
    · rw [tailLoop_short hdecode hone (Nat.le_succ 1), htail]
    · rw [List.map_cons, List.map_cons, Read.crlf, Read.crlf, tailLoop_short hdecode' hone' hlen,
        htail']

/-- The window after the first chunk. -/
lemma buffer_feed_new (htext : text ≠ []) (hfails : ¬ Fails text) (hreboot : ¬ HasSoftReboot text) :
    (StreamingPatternDetector.new.feed text).2.buffer = text.rtake BUFFER_LIMIT := by
  simp only [Fails, not_or] at hfails
  obtain ⟨kept, hkept, hbuffer, -⟩ :=
    StreamingPatternDetector.new.feed_spec htext hfails.1 hfails.2.1 hfails.2.2
  rw [hbuffer, hkept.unique (.inl ⟨hreboot, rfl⟩)]
  rfl

/-- **The banner in one piece** fails in the window over the text. -/
lemma tailLoop_banner {first second : Str} (hsecond : second ≠ [])
    (hbanner : IsSafeModeBanner (first ++ second)) (hfirst : first ≠ [])
    (hreboot : ¬ HasSoftReboot first) (hfits : first.length ≤ BUFFER_LIMIT) (reads : List Read) :
    tailLoop true true .new .new (.chunk (first.flatMap String.utf8EncodeChar) ::
      .chunk (second.flatMap String.utf8EncodeChar) :: reads) = .tracebackDetected := by
  have hdecode := decode_encoded hfirst
  have hdecode' := decode_encoded hsecond
  by_cases hfails : Fails first
  · refine tailLoop_of_fails (by rwa [hdecode]) ?_
    rw [hdecode]
    exact hfails
  · rw [tailLoop_of_not_fails (by rwa [hdecode]) (by rw [hdecode]; exact hfails), hdecode]
    refine tailLoop_of_fails (by rwa [hdecode']) (.inr (.inl ?_))
    rw [hdecode', buffer_feed_new hfirst hfails hreboot, List.rtake, Nat.sub_eq_zero_of_le hfits]
    exact ⟨_, hbanner, List.infix_rfl⟩

/-- **The banner with CR LF** does not fail in the window over it. -/
lemma tailLoop_banner_crlf {first second : Str} (hsecond : second ≠ [])
    (hinner : IsInnerBanner (first ++ second)) (hhard : ¬ HasHardFault (first ++ second))
    (hreboot : ¬ HasSoftReboot first) (hlong : BUFFER_LIMIT < (crlf first).length)
    (reads : List Read) :
    tailLoop true true .new .new (.chunk (crlfBytes (first.flatMap String.utf8EncodeChar)) ::
      .chunk (crlfBytes (second.flatMap String.utf8EncodeChar)) :: .dropped .reopened :: reads) =
      tailLoop true true .new .new reads := by
  have hfirst : first ≠ [] := by
    rintro rfl
    exact absurd hlong (by decide)
  have hcrlf : crlf first ≠ [] := fun h => hfirst (crlf_eq_nil_iff.mp h)
  have hcrlf' : crlf second ≠ [] := fun h => hsecond (crlf_eq_nil_iff.mp h)
  have hdecode := decode_encoded_crlf hfirst
  have hdecode' := decode_encoded_crlf hsecond
  have hpos := List.length_pos_of_ne_nil hsecond
  have hfault : ∀ {text : Str}, text <:+: crlf (first ++ second) → ¬ HasHardFault text := by
    intro text htext hfault
    exact hhard ((isInfix_crlf_iff plain_hardFault).mp (hfault.trans htext))
  have htraceback : ∀ {text : Str}, text <:+: crlf (first ++ second) → ¬ HasTraceback text :=
    fun htext h => not_hasTraceback_crlf _ (h.mono htext)
  have hpart : crlf first <:+: crlf (first ++ second) := by
    rw [crlf_append]
    exact (List.prefix_append _ _).isInfix
  obtain ⟨left, hleft⟩ := rtake_isSuffix (crlf first) BUFFER_LIMIT
  have hpart' : (crlf first).rtake BUFFER_LIMIT ++ crlf second <:+: crlf (first ++ second) := by
    refine List.IsSuffix.isInfix ⟨left, ?_⟩
    rw [crlf_append, ← List.append_assoc, hleft]
  -- a banner in a part of the text with CR LF is the whole banner
  have hwhole : ∀ {before text : Str}, crlf (first ++ second) = before ++ text → HasSafeMode text →
      before = [] := by
    rintro before text htext ⟨-, ⟨reason', rfl⟩, between, after, rfl⟩
    have hplace : crlf (first ++ second) =
        before ++ between ++ (SAFE_MODE_START ++ (reason' ++ (SAFE_MODE_END ++ after))) := by
      rw [htext]
      simp only [List.append_assoc]
    obtain ⟨front, more, hmore, hbefore, hrest⟩ :=
      exists_of_crlf_append plain_safeModeStart hplace
    obtain ⟨reason, rest, rfl, -, -⟩ := exists_of_crlf_append plain_safeModeEnd hrest.symm
    have heq := hinner.2 (SAFE_MODE_START ++ (reason ++ SAFE_MODE_END))
      ⟨front, rest, by rw [hmore]; simp only [List.append_assoc]⟩ ⟨reason, rfl⟩
    have hlen := congrArg List.length heq
    have hlen' := congrArg List.length hmore
    simp only [List.length_append] at hlen hlen'
    have hfront : front = [] := List.length_eq_zero_iff.mp (by omega)
    rw [hfront] at hbefore
    exact (List.append_eq_nil_iff.mp hbefore).1
  have hfails : ¬ Fails (crlf first) := by
    rintro (h | h | h)
    · exact htraceback hpart h
    · have hsame : LeavesSame [] [] := .inl rfl
      have hsafe := hasSafeMode_window first hsame (by rwa [List.rtake_nil])
      rw [List.rtake_nil] at hsafe
      obtain ⟨other, hother, hpiece⟩ := hsafe
      rw [List.nil_append] at hpiece
      have heq := hinner.2 other (hpiece.trans (List.prefix_append _ _).isInfix) hother
      have hle := hpiece.length_le
      rw [heq, List.length_append] at hle
      omega
    · exact hfault hpart h
  have hreboot' : ¬ HasSoftReboot (crlf first) := by
    rwa [HasSoftReboot, isInfix_crlf_iff plain_softReboot]
  have hbuffer := buffer_feed_new hcrlf hfails hreboot'
  have hfails' : ¬ Fails ((crlf first).rtake BUFFER_LIMIT ++ crlf second) := by
    rintro (h | h | h)
    · exact htraceback hpart' h
    · have hcut : crlf (first ++ second) =
          left ++ ((crlf first).rtake BUFFER_LIMIT ++ crlf second) := by
        rw [crlf_append, ← List.append_assoc, hleft]
      have hnil := hwhole hcut h
      rw [hnil, List.nil_append] at hleft
      have hle := length_rtake (crlf first) BUFFER_LIMIT
      rw [hleft] at hle
      omega
    · exact hfault hpart' h
  rw [tailLoop_of_not_fails (by rwa [hdecode]) (by rw [hdecode]; exact hfails), hdecode,
    tailLoop_of_not_fails (by rwa [hdecode']) (by rw [hdecode', hbuffer]; exact hfails'), hdecode']
  rfl

/-- **A banner that is too long** is a failure in one run and not in the other. -/
lemma not_tailAgrees_of_hasLongBanner (h : HasLongBanner text) : ¬ TailAgrees text := by
  obtain ⟨first, second, ⟨before, after, rfl⟩, hsecond, hinner, hhard, hreboot, hfits, hlong⟩ := h
  have hfirst : first ≠ [] := by
    rintro rfl
    exact absurd hlong (by decide)
  intro hagrees
  have hrun := hagrees true (shred before ++ (.chunk (first.flatMap String.utf8EncodeChar) ::
    .chunk (second.flatMap String.utf8EncodeChar) :: .dropped .reopened :: (shred after ++ []))) ?_
  · rw [tail, tail, (shred_spec _ _).2.1, (shred_spec _ _).2.2,
      tailLoop_banner hsecond hinner.1 hfirst hreboot hfits] at hrun
    simp only [List.map_cons, Read.crlf] at hrun
    rw [tailLoop_banner_crlf hsecond hinner hhard hreboot hlong, (shred_spec after []).2.2] at hrun
    cases hrun
  · rw [received, (shred_spec _ _).1, receivedFrom, decode_encoded hfirst, receivedFrom,
      decode_encoded hsecond, receivedFrom, if_pos rfl, (shred_spec after []).1]
    simp [receivedFrom]

/-- **When line endings do not matter.** A text is detected alike with LF and with CR LF, and `tail`
returns the same for both however they are read, exactly where the text has no traceback, no second
hard fault after the blank line that ends the first, and no safe-mode banner that is too long for
the window over the text with CR LF alone. -/
theorem endingsAgree_iff (text : Str) :
    EndingsAgree text ↔ ¬ HasTraceback text ∧ ¬ TwoHardFaults text ∧ ¬ HasLongBanner text := by
  rw [EndingsAgree, sameDetected_iff]
  constructor
  · rintro ⟨⟨htraceback, htwo⟩, htail⟩
    exact ⟨htraceback, htwo, fun hlong => not_tailAgrees_of_hasLongBanner hlong htail⟩
  · rintro ⟨htraceback, htwo, hlong⟩
    exact ⟨⟨htraceback, htwo⟩, tailAgrees_of_not htraceback hlong⟩

/-- A traceback as a board sends it, with LF. -/
def FAILING_TEXT : Str := "Traceback (most recent call last):\n  File\nValueError\n".toList

/-- **Line endings matter** for a plain traceback. -/
theorem not_endingsAgree_traceback : '\r' ∉ FAILING_TEXT ∧ ¬ EndingsAgree FAILING_TEXT := by
  refine ⟨by decide, fun h => ?_⟩
  refine ((sameDetected_iff FAILING_TEXT).mp h.1).1
    ⟨[], ["  File\n".toList], 'V', "alueError\n".toList, List.cons_ne_nil _ _, ?_, by decide,
      by decide⟩
  intro line hline
  rw [List.mem_singleton.mp hline]
  exact ⟨"File".toList, by decide, by decide⟩

/-- The run over it fails, and the run over what the board sends does not. -/
example : tail true true [.chunk (FAILING_TEXT.flatMap String.utf8EncodeChar)] =
      .tracebackDetected ∧
    tail true true [.chunk (crlfBytes (FAILING_TEXT.flatMap String.utf8EncodeChar))] = .ok := by
  decide +kernel

end ChuMicro.Repl
