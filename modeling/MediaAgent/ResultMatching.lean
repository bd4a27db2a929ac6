import Mathlib
import MediaAgent.InferLoop

/-!
# Which result a packet gets

`takeCachedInferenceResult` returns the unexpired result that is nearest to the packet's pts, or else the one
that is stored under its frame id, and takes it out of the cache together with the expired ones. So a result
that is delivered was stored by one call, which every call in between has spared, and it is delivered once.
-/

namespace MediaAgent
open Std TreeMaps StreamBuffer

/-! ## The nearest result -/

/-- The distance that the matching loop computes. -/
def ptsDiff (resultPts pts : Int) : Int :=
  if resultPts ≥ pts then resultPts - pts else pts - resultPts

lemma ptsDiff_eq_abs (resultPts pts : Int) : ptsDiff resultPts pts = |resultPts - pts| := by
  unfold ptsDiff
  split
  · rw [abs_of_nonneg (by omega)]
  · rw [abs_of_neg (by omega)]
    omega

/-- The entry has a pts, and it is not farther away than the window allows. -/
def inWindow (pts : Int) (e : Int × FrameInferenceResult) : Bool :=
  decide (0 ≤ e.2.pts) && decide (ptsDiff e.2.pts pts ≤ kCachedInferenceMatchWindowPts)

/-- The matching loop finds the first one of the entries in the window that are nearest. -/
lemma nearestByPts_eq_argmin (pts : Int) (entries : List (Int × FrameInferenceResult)) :
    nearestByPts pts entries = (entries.filter (inWindow pts)).argmin fun e => ptsDiff e.2.pts pts := by
  have hloop : entries.foldl (fun (best : Option (Int × FrameInferenceResult) × Int) e =>
      if e.2.pts < 0 then best
      else
        let ptsDiff := if e.2.pts ≥ pts then e.2.pts - pts else pts - e.2.pts
        if ptsDiff ≤ kCachedInferenceMatchWindowPts ∧ ptsDiff < best.2 then (some e, ptsDiff)
        else best) (none, kCachedInferenceMatchWindowPts + 1) =
      ((entries.filter (inWindow pts)).argmin fun e => ptsDiff e.2.pts pts,
        (((entries.filter (inWindow pts)).argmin fun e => ptsDiff e.2.pts pts).map
          fun e => ptsDiff e.2.pts pts).getD (kCachedInferenceMatchWindowPts + 1)) := by
    induction entries using List.reverseRecOn with
    | nil => rfl
    | append_singleton entries e ih =>
      rw [List.foldl_append, ih, List.foldl_cons, List.foldl_nil, List.filter_append]
      by_cases hpts : e.2.pts < 0
      · have hout : inWindow pts e = false := by simp [inWindow, hpts]
        rw [if_pos hpts, List.filter_singleton, hout]
        simp
      · rw [if_neg hpts]
        by_cases hnear : ptsDiff e.2.pts pts ≤ kCachedInferenceMatchWindowPts
        · have hin : inWindow pts e = true := by
            simp only [inWindow, hnear, decide_true, Bool.and_true, decide_eq_true_eq]
            omega
          rw [List.filter_singleton, hin, cond_true, List.argmin_concat]
          cases hbest : (entries.filter (inWindow pts)).argmin fun e => ptsDiff e.2.pts pts with
          | none =>
            have hlt : ptsDiff e.2.pts pts < kCachedInferenceMatchWindowPts + 1 := by omega
            exact if_pos ⟨hnear, hlt⟩
          | some best =>
            by_cases hless : ptsDiff e.2.pts pts < ptsDiff best.2.pts pts
            · simp only [if_pos hless]
              exact if_pos ⟨hnear, hless⟩
            · simp only [if_neg hless]
              exact if_neg fun h => hless h.2
        · have hout : inWindow pts e = false := by simp [inWindow, hnear]
          rw [List.filter_singleton, hout, cond_false, List.append_nil]
          exact if_neg fun h => hnear h.1
  unfold nearestByPts
  rw [hloop]

/-! ## One call -/

/-- An unexpired entry in the window of a pts. -/
structure Matches (b : StreamBuffer) (pts now id : Int) (r : FrameInferenceResult) : Prop where
  cached : b.cachedInferenceResults[id]? = some r
  live : now ≤ r.expireAtMonoMs
  asked : 0 ≤ pts
  stamped : 0 ≤ r.pts
  near : |r.pts - pts| ≤ kCachedInferenceMatchWindowPts

/-- The entry that a call returns: the nearest one in the window; else, when there is none, the unexpired one
under its frame id; else none. -/
inductive Chosen (b : StreamBuffer) (frameId pts now : Int) : Option (Int × FrameInferenceResult) → Prop
  | nearest {id : Int} {r : FrameInferenceResult} (h : Matches b pts now id r)
    (least : ∀ id' r', Matches b pts now id' r' → |r.pts - pts| ≤ |r'.pts - pts|) : Chosen b frameId pts now (some (id, r))
  | stored {r : FrameInferenceResult} (hnone : ∀ id r, ¬Matches b pts now id r) (hid : 0 ≤ frameId)
    (h : b.cachedInferenceResults[frameId]? = some r) (live : now ≤ r.expireAtMonoMs) :
    Chosen b frameId pts now (some (frameId, r))
  | nothing (hnone : ∀ id r, ¬Matches b pts now id r)
    (hmiss : 0 ≤ frameId → ∀ r, b.cachedInferenceResults[frameId]? = some r → r.expireAtMonoMs < now) :
    Chosen b frameId pts now none

/-- The call returns the entry that is to be chosen, takes it and the expired ones out of the cache, and leaves the
rest of the cache and of the buffer. -/
def TakesChosen (b : StreamBuffer) (frameId pts now : Int) (answer : Option FrameInferenceResult × StreamBuffer) : Prop :=
  ∃ chosen, Chosen b frameId pts now chosen ∧ answer.1 = chosen.map (·.2) ∧
    (∀ (id : Int) (r : FrameInferenceResult), answer.2.cachedInferenceResults[id]? = some r ↔
      b.cachedInferenceResults[id]? = some r ∧ now ≤ r.expireAtMonoMs ∧ ∀ e ∈ chosen, e.1 ≠ id) ∧
    answer.2 = { b with cachedInferenceResults := answer.2.cachedInferenceResults }

section take

variable {b : StreamBuffer} {frameId pts now : Int}

/-- The entries in the window are those that the loop runs over, in whatever order. -/
lemma mem_window_iff (visit : Traversal (Int × FrameInferenceResult)) (hasked : 0 ≤ pts) {id : Int}
    {r : FrameInferenceResult} :
    (id, r) ∈ (visit.order (b.purgeExpiredCachedInferenceResultsLocked now).cachedInferenceResults.toList).filter
      (inWindow pts) ↔ Matches b pts now id r := by
  rw [List.mem_filter, (visit.perm _).mem_iff, TreeMap.mem_toList_iff_getElem?_eq_some, lookup_purge]
  simp only [inWindow, ptsDiff_eq_abs, Bool.and_eq_true, decide_eq_true_eq]
  exact ⟨fun ⟨⟨hcached, hlive⟩, hstamped, hnear⟩ => ⟨hcached, hlive, hasked, hstamped, hnear⟩,
    fun h => ⟨⟨h.cached, h.live⟩, h.stamped, h.near⟩⟩

/-- The entry that the call settles on. -/
def matchedIt (b : StreamBuffer) (visit : Traversal (Int × FrameInferenceResult)) (frameId pts now : Int) :
    Option (Int × FrameInferenceResult) :=
  let b := b.purgeExpiredCachedInferenceResultsLocked now
  (if pts ≥ 0 then nearestByPts pts (visit.order b.cachedInferenceResults.toList) else none).or
    (if frameId ≥ 0 then (b.cachedInferenceResults[frameId]?).map fun r => (frameId, r) else none)

lemma takeCachedInferenceResult_matchedIt (b : StreamBuffer) (visit : Traversal (Int × FrameInferenceResult))
    (frameId pts now : Int) : b.takeCachedInferenceResult visit frameId pts now =
      match matchedIt b visit frameId pts now with
      | none => (none, b.purgeExpiredCachedInferenceResultsLocked now)
      | some (id, r) => (some r, { b.purgeExpiredCachedInferenceResultsLocked now with
          cachedInferenceResults :=
            (b.purgeExpiredCachedInferenceResultsLocked now).cachedInferenceResults.erase id }) := by
  unfold takeCachedInferenceResult matchedIt
  dsimp only
  generalize (if pts ≥ 0 then nearestByPts pts (visit.order
    (b.purgeExpiredCachedInferenceResultsLocked now).cachedInferenceResults.toList) else none) = found
  cases found <;> rfl

/-- The fallback to the frame id, when no entry is in the window. -/
lemma chosen_byId (hnone : ∀ id r, ¬Matches b pts now id r) :
    Chosen b frameId pts now (if frameId ≥ 0 then
      ((b.purgeExpiredCachedInferenceResultsLocked now).cachedInferenceResults[frameId]?).map fun r => (frameId, r)
      else none) := by
  by_cases hid : frameId ≥ 0
  · rw [if_pos hid]
    cases hcached : (b.purgeExpiredCachedInferenceResultsLocked now).cachedInferenceResults[frameId]? with
    | none =>
      refine .nothing hnone fun _ r hr => ?_
      by_contra hlive
      have hpurged := (lookup_purge b now frameId r).mpr ⟨hr, by omega⟩
      rw [hcached] at hpurged
      cases hpurged
    | some r =>
      obtain ⟨hr, hlive⟩ := (lookup_purge b now frameId r).mp hcached
      exact .stored hnone hid hr hlive
  · rw [if_neg hid]
    exact .nothing hnone fun h => absurd h hid

lemma chosen_matchedIt (b : StreamBuffer) (visit : Traversal (Int × FrameInferenceResult)) (frameId pts now : Int) :
    Chosen b frameId pts now (matchedIt b visit frameId pts now) := by
  unfold matchedIt
  dsimp only
  by_cases hasked : pts ≥ 0
  · rw [if_pos hasked, nearestByPts_eq_argmin]
    cases hbest : ((visit.order (b.purgeExpiredCachedInferenceResultsLocked now).cachedInferenceResults.toList).filter
        (inWindow pts)).argmin fun e => ptsDiff e.2.pts pts with
    | none =>
      rw [Option.none_or]
      refine chosen_byId fun id r h => ?_
      have hmem := (mem_window_iff visit hasked).mpr h
      rw [List.argmin_eq_none.mp hbest] at hmem
      cases hmem
    | some e =>
      rw [Option.some_or]
      have hmem : e ∈ _ := List.argmin_mem hbest
      refine .nearest ((mem_window_iff visit hasked).mp hmem) fun id' r' h => ?_
      have hle := List.le_of_mem_argmin ((mem_window_iff visit hasked).mpr h) hbest
      rw [ptsDiff_eq_abs, ptsDiff_eq_abs] at hle
      exact hle
  · rw [if_neg hasked, Option.none_or]
    exact chosen_byId fun id r h => hasked h.asked

theorem takesChosen (b : StreamBuffer) (visit : Traversal (Int × FrameInferenceResult)) (frameId pts now : Int) :
    TakesChosen b frameId pts now (b.takeCachedInferenceResult visit frameId pts now) := by
  refine ⟨matchedIt b visit frameId pts now, chosen_matchedIt b visit frameId pts now, ?_, fun id r => ?_,
    takeCachedInferenceResult_eq ..⟩
  · rw [takeCachedInferenceResult_matchedIt]
    cases matchedIt b visit frameId pts now <;> rfl
  · rw [takeCachedInferenceResult_matchedIt]
    cases matchedIt b visit frameId pts now with
    | none =>
      rw [lookup_purge]
      simp
    | some e =>
      dsimp only
      rw [lookup_erase]
      by_cases hid : e.1 = id
      · simp [hid]
      · rw [if_neg hid, lookup_purge]
        simp [hid]

end take

/-! ## The distances in 64 bits -/

/-- The difference of two `int64_t`, if it is one. -/
def subInt64 (a b : Int) : Option Int := if -(2 ^ 63) ≤ a - b ∧ a - b < 2 ^ 63 then some (a - b) else none

/-- `ptsDiff` in `int64_t`. -/
def ptsDiffInt64 (resultPts pts : Int) : Option Int :=
  if resultPts ≥ pts then subInt64 resultPts pts else subInt64 pts resultPts

/-- The matching loop with every distance computed in `int64_t`; none if one of them overflows. -/
def nearestByPtsInt64 (pts : Int) (entries : List (Int × FrameInferenceResult)) :
    Option (Option (Int × FrameInferenceResult)) :=
  (entries.foldlM (fun (best : Option (Int × FrameInferenceResult) × Int) e =>
    if e.2.pts < 0 then some best
    else (ptsDiffInt64 e.2.pts pts).map fun ptsDiff =>
      if ptsDiff ≤ kCachedInferenceMatchWindowPts ∧ ptsDiff < best.2 then (some e, ptsDiff) else best)
    (none, kCachedInferenceMatchWindowPts + 1)).map (·.1)

/-- The distance of two pts that are not negative is an `int64_t`. -/
lemma ptsDiffInt64_eq {resultPts pts : Int} (hresult : 0 ≤ resultPts ∧ resultPts < 2 ^ 63)
    (hpts : 0 ≤ pts ∧ pts < 2 ^ 63) : ptsDiffInt64 resultPts pts = some (ptsDiff resultPts pts) := by
  unfold ptsDiffInt64 ptsDiff
  by_cases hle : resultPts ≥ pts
  · rw [if_pos hle, if_pos hle]
    exact if_pos (by omega)
  · rw [if_neg hle, if_neg hle]
    exact if_pos (by omega)

lemma nearestByPtsInt64_eq {pts : Int} (hpts : 0 ≤ pts ∧ pts < 2 ^ 63) {entries : List (Int × FrameInferenceResult)}
    (hentries : ∀ e ∈ entries, e.2.pts < 2 ^ 63) :
    nearestByPtsInt64 pts entries = some (nearestByPts pts entries) := by
  unfold nearestByPtsInt64 nearestByPts
  generalize ((none, kCachedInferenceMatchWindowPts + 1) : Option (Int × FrameInferenceResult) × Int) = best
  induction entries generalizing best with
  | nil => rfl
  | cons e entries ih =>
    have hrest := ih fun e' he' => hentries e' (List.mem_cons_of_mem _ he')
    rw [List.foldlM_cons, List.foldl_cons]
    by_cases hunset : e.2.pts < 0
    · rw [if_pos hunset, if_pos hunset]
      exact hrest best
    · have hstamped : 0 ≤ e.2.pts ∧ e.2.pts < 2 ^ 63 := ⟨by omega, hentries e (List.mem_cons_self ..)⟩
      rw [if_neg hunset, if_neg hunset, ptsDiffInt64_eq hstamped hpts]
      exact hrest _

/-! ## Runs of calls -/

/-- The result that a call hands out. -/
def BufferCall.delivered (b : StreamBuffer) : BufferCall → Option FrameInferenceResult
  | .takeCachedInferenceResult context frameId pts =>
    (b.takeCachedInferenceResult context.visit frameId pts context.nowMonoMs).1
  | _ => none

/-- The clock of a call that purges the cache. -/
def BufferCall.clock : BufferCall → Option Int
  | .takeCachedInferenceResult context _ _ => some context.nowMonoMs
  | _ => none

/-- What the call numbered `j` of a run from an empty buffer hands out. -/
def deliveredBy (calls : List BufferCall) (j : Nat) : Option FrameInferenceResult :=
  calls[j]?.bind fun c => c.delivered (({} : StreamBuffer).after (calls.take j))

/-- The call stores nothing else under the frame id of a result, does not release it, hands out nothing that was
stored under it, and does not come after the result's expiry. -/
structure BufferCall.Spares (c : BufferCall) (b : StreamBuffer) (r : FrameInferenceResult) : Prop where
  kept : ∀ r', c = .worker (.updateCachedInferenceResult r') → r'.frameId ≠ r.frameId
  unreleased : c ≠ .releaseFrame r.frameId
  undelivered : ∀ d, c.delivered b = some d → d.frameId ≠ r.frameId
  live : ∀ now, c.clock = some now → now ≤ r.expireAtMonoMs

/-- The call numbered `i` stores the result, and every later call of the run spares it. -/
structure StoredBy (calls : List BufferCall) (i : Nat) (r : FrameInferenceResult) : Prop where
  call : calls[i]? = some (.worker (.updateCachedInferenceResult r))
  spared : ∀ k c, i < k → calls[k]? = some c → c.Spares (({} : StreamBuffer).after (calls.take k)) r

lemma getElem?_snoc {calls : List BufferCall} {c d : BufferCall} {k : Nat} (h : (calls ++ [c])[k]? = some d) :
    calls[k]? = some d ∧ (calls ++ [c]).take k = calls.take k ∨
      k = calls.length ∧ c = d ∧ (calls ++ [c]).take k = calls := by
  by_cases hk : k < calls.length
  · rw [List.getElem?_append_left hk] at h
    exact .inl ⟨h, List.take_append_of_le_length hk.le⟩
  · obtain ⟨hlt, -⟩ := List.getElem?_eq_some_iff.mp h
    rw [List.length_append, List.length_singleton] at hlt
    have hlast : k = calls.length := by omega
    subst hlast
    rw [List.getElem?_concat_length] at h
    exact .inr ⟨rfl, Option.some.inj h, List.take_left' rfl⟩

namespace StoredBy

variable {calls : List BufferCall} {i : Nat} {r : FrameInferenceResult} {c : BufferCall}

lemma snoc (h : StoredBy calls i r) (hspares : c.Spares (({} : StreamBuffer).after calls) r) :
    StoredBy (calls ++ [c]) i r := by
  refine ⟨?_, fun k d hik hd => ?_⟩
  · rw [List.getElem?_append_left (List.getElem?_eq_some_iff.mp h.call).1]
    exact h.call
  · rcases getElem?_snoc hd with ⟨hd, htake⟩ | ⟨-, rfl, htake⟩
    · rw [htake]
      exact h.spared k d hik hd
    · rw [htake]
      exact hspares

/-- The result of the last call. -/
lemma last (calls : List BufferCall) (r : FrameInferenceResult) :
    StoredBy (calls ++ [.worker (.updateCachedInferenceResult r)]) calls.length r := by
  refine ⟨List.getElem?_concat_length, fun k d hik hd => ?_⟩
  obtain ⟨hlt, -⟩ := List.getElem?_eq_some_iff.mp hd
  rw [List.length_append, List.length_singleton] at hlt
  omega

end StoredBy

/-- The calls other than the three that use the cache. -/
def BufferCall.keepsCache : BufferCall → Bool
  | .worker (.updateCachedInferenceResult _) | .releaseFrame _ | .takeCachedInferenceResult .. => false
  | _ => true

lemma apply_keepsCache {c : BufferCall} (h : c.keepsCache = true) (b : StreamBuffer) :
    (c.apply b).cachedInferenceResults = b.cachedInferenceResults := by
  cases c with
  | enqueuePacket packet =>
    dsimp only [BufferCall.apply]
    unfold StreamBuffer.enqueuePacket
    split
    · rfl
    · split <;> rfl
  | enqueueFrame frame =>
    dsimp only [BufferCall.apply]
    unfold StreamBuffer.enqueueFrame
    split
    · rfl
    · split <;> rfl
  | popPacket =>
    dsimp only [BufferCall.apply]
    unfold StreamBuffer.popPacket
    split <;> rfl
  | releaseFrame id => cases h
  | takeCachedInferenceResult context frameId pts => cases h
  | stop => rfl
  | worker call =>
    cases call with
    | selectFrameForInference =>
      dsimp only [BufferCall.apply, WorkerCall.apply]
      unfold StreamBuffer.selectFrameForInference
      split <;> rfl
    | updateCachedInferenceResult r => cases h
    | _ => rfl

lemma spares_keepsCache {c : BufferCall} (h : c.keepsCache = true) (b : StreamBuffer) (r : FrameInferenceResult) :
    c.Spares b r := by
  have hnone : c.delivered b = none ∧ c.clock = none := by
    cases c with
    | takeCachedInferenceResult context frameId pts => cases h
    | _ => exact ⟨rfl, rfl⟩
  refine ⟨fun r' he => ?_, fun he => ?_, fun d hd => ?_, fun now hnow => ?_⟩
  · rw [he] at h
    cases h
  · rw [he] at h
    cases h
  · rw [hnone.1] at hd
    cases hd
  · rw [hnone.2] at hnow
    cases hnow

/-- Every entry of the cache is stored under its own frame id by a call that the later ones have spared. -/
def Sourced (calls : List BufferCall) : Prop :=
  ∀ (id : Int) (r : FrameInferenceResult), (({} : StreamBuffer).after calls).cachedInferenceResults[id]? = some r →
    r.frameId = id ∧ 0 ≤ id ∧ ∃ i, StoredBy calls i r

namespace Sourced

variable {calls : List BufferCall} {c : BufferCall}

/-- A call that takes nothing out of the cache but what it does not spare, and adds nothing. -/
lemma shrink (h : Sourced calls)
    (hkeeps : ∀ (id : Int) (r : FrameInferenceResult),
      (c.apply (({} : StreamBuffer).after calls)).cachedInferenceResults[id]? = some r →
      (({} : StreamBuffer).after calls).cachedInferenceResults[id]? = some r ∧
        (r.frameId = id → 0 ≤ id → c.Spares (({} : StreamBuffer).after calls) r)) : Sourced (calls ++ [c]) := by
  intro id r hr
  rw [after_append] at hr
  obtain ⟨hr, hspares⟩ := hkeeps id r hr
  obtain ⟨hid, h0, i, hi⟩ := h id r hr
  exact ⟨hid, h0, i, hi.snoc (hspares hid h0)⟩

/-- A call that is none of the three. -/
lemma other (h : Sourced calls) (hkeeps : c.keepsCache = true) : Sourced (calls ++ [c]) := by
  apply h.shrink
  intro id r hr
  rw [apply_keepsCache hkeeps] at hr
  exact ⟨hr, fun _ _ => spares_keepsCache hkeeps _ r⟩

lemma releaseFrame (h : Sourced calls) (id : Int) : Sourced (calls ++ [.releaseFrame id]) := by
  apply h.shrink
  intro k r hr
  dsimp only [BufferCall.apply, StreamBuffer.releaseFrame] at hr
  rw [lookup_erase] at hr
  by_cases he : id = k
  · rw [if_pos he] at hr
    cases hr
  · rw [if_neg he] at hr
    refine ⟨hr, fun hid _ => ⟨nofun, fun hsame => ?_, nofun, nofun⟩⟩
    injection hsame with hsame
    exact he (hsame.trans hid)

lemma update (h : Sourced calls) (r : FrameInferenceResult) :
    Sourced (calls ++ [.worker (.updateCachedInferenceResult r)]) := by
  have hspares : ∀ (id : Int) (r' : FrameInferenceResult), r.frameId ≠ id → r'.frameId = id →
      (BufferCall.worker (.updateCachedInferenceResult r)).Spares (({} : StreamBuffer).after calls) r' := by
    intro id r' hne hid
    refine ⟨fun r'' he => ?_, nofun, nofun, nofun⟩
    injection he with he
    injection he with he
    rw [← he, hid]
    exact hne
  by_cases hneg : r.frameId < 0
  · apply h.shrink
    intro id r' hr'
    dsimp only [BufferCall.apply, WorkerCall.apply, updateCachedInferenceResult] at hr'
    rw [if_pos hneg] at hr'
    exact ⟨hr', fun hid h0 => hspares id r' (by omega) hid⟩
  · intro id r' hr'
    rw [after_append] at hr'
    dsimp only [BufferCall.apply, WorkerCall.apply, updateCachedInferenceResult] at hr'
    rw [if_neg hneg, lookup_insert] at hr'
    by_cases he : r.frameId = id
    · rw [if_pos he] at hr'
      obtain rfl := Option.some.inj hr'
      exact ⟨he, by omega, calls.length, .last calls r⟩
    · rw [if_neg he] at hr'
      obtain ⟨hid, h0, i, hi⟩ := h id r' hr'
      exact ⟨hid, h0, i, hi.snoc (hspares id r' he hid)⟩

lemma take (h : Sourced calls) (context : TakeContext) (frameId pts : Int) :
    Sourced (calls ++ [.takeCachedInferenceResult context frameId pts]) := by
  obtain ⟨chosen, hchosen, hanswer, hcache, -⟩ :=
    takesChosen (({} : StreamBuffer).after calls) context.visit frameId pts context.nowMonoMs
  apply h.shrink
  intro id r hr
  obtain ⟨hr, hlive, hother⟩ := (hcache id r).mp hr
  refine ⟨hr, fun hid _ => ⟨nofun, nofun, fun d hd => ?_, fun now hnow => ?_⟩⟩
  · dsimp only [BufferCall.delivered] at hd
    rw [hanswer] at hd
    obtain ⟨e, rfl, rfl⟩ := Option.map_eq_some_iff.mp hd
    have hcached : (({} : StreamBuffer).after calls).cachedInferenceResults[e.1]? = some e.2 := by
      cases hchosen with
      | nearest h _ => exact h.cached
      | stored _ _ h _ => exact h
    rw [(h e.1 e.2 hcached).1, hid]
    exact hother e rfl
  · dsimp only [BufferCall.clock] at hnow
    cases hnow
    exact hlive

end Sourced

lemma sourced (calls : List BufferCall) : Sourced calls := by
  induction calls using List.reverseRecOn with
  | nil =>
    intro id r hr
    simp [StreamBuffer.after] at hr
  | append_singleton calls c ih =>
    cases c with
    | releaseFrame id => exact ih.releaseFrame id
    | takeCachedInferenceResult context frameId pts => exact ih.take context frameId pts
    | worker call =>
      cases call with
      | updateCachedInferenceResult r => exact ih.update r
      | _ => exact ih.other rfl
    | _ => exact ih.other rfl

section delivered

variable {calls : List BufferCall} {i j j' : Nat} {r r' : FrameInferenceResult}

/-- What is handed out was stored by an earlier call, and has not expired. -/
lemma exists_storedBy (h : deliveredBy calls j = some r) : (∃ i, StoredBy (calls.take j) i r) ∧
    ∀ now, calls[j]?.bind BufferCall.clock = some now → now ≤ r.expireAtMonoMs := by
  obtain ⟨c, hc, hd⟩ := Option.bind_eq_some_iff.mp h
  rw [hc]
  cases c with
  | takeCachedInferenceResult context frameId pts =>
    obtain ⟨chosen, hchosen, hanswer, -, -⟩ :=
      takesChosen (({} : StreamBuffer).after (calls.take j)) context.visit frameId pts context.nowMonoMs
    dsimp only [BufferCall.delivered] at hd
    rw [hanswer] at hd
    obtain ⟨e, rfl, rfl⟩ := Option.map_eq_some_iff.mp hd
    have hcached : (({} : StreamBuffer).after (calls.take j)).cachedInferenceResults[e.1]? = some e.2 ∧
        context.nowMonoMs ≤ e.2.expireAtMonoMs := by
      cases hchosen with
      | nearest hm _ => exact ⟨hm.cached, hm.live⟩
      | stored _ _ hc' live => exact ⟨hc', live⟩
    refine ⟨(sourced (calls.take j) e.1 e.2 hcached.1).2.2, fun now hnow => ?_⟩
    cases hnow
    exact hcached.2
  | _ => cases hd

lemma StoredBy.lt (h : StoredBy (calls.take j) i r) : i < j := by
  have hlt := (List.getElem?_eq_some_iff.mp h.call).1
  rw [List.length_take] at hlt
  omega

/-- A stored result is not handed out again later. -/
lemma StoredBy.not_again (hd : deliveredBy calls j = some r) (h : StoredBy (calls.take j) i r)
    (h' : StoredBy (calls.take j') i r') : ¬j < j' := by
  intro hlt
  obtain ⟨c, hc, hr⟩ := Option.bind_eq_some_iff.mp hd
  have hsame : r = r' := by
    have hcall := h.call
    have hcall' := h'.call
    rw [List.getElem?_take_of_lt h.lt] at hcall
    rw [List.getElem?_take_of_lt h'.lt, hcall] at hcall'
    injection hcall' with hcall'
    injection hcall' with hcall'
    injection hcall'
  have hspares := h'.spared j c h.lt (by rw [List.getElem?_take_of_lt hlt, hc])
  rw [List.take_take, Nat.min_eq_left hlt.le] at hspares
  exact hspares.undelivered r hr (congrArg FrameInferenceResult.frameId hsame)

end delivered

/-- In every run of calls, every call returns and removes the entry that is to be chosen; what a call delivers was
stored by an earlier call that every call in between has spared, it has not expired, and no other call delivers it;
and no distance between 64-bit pts overflows. -/
theorem cachedResults_delivered (calls : List BufferCall) :
    (∀ (visit : Traversal (Int × FrameInferenceResult)) (frameId pts now : Int),
      TakesChosen (({} : StreamBuffer).after calls) frameId pts now
        ((({} : StreamBuffer).after calls).takeCachedInferenceResult visit frameId pts now)) ∧
    (∃ storedBy : Nat → Nat, ∀ j r, deliveredBy calls j = some r →
      storedBy j < j ∧ StoredBy (calls.take j) (storedBy j) r ∧
      (∀ now, calls[j]?.bind BufferCall.clock = some now → now ≤ r.expireAtMonoMs) ∧
      ∀ j' r', deliveredBy calls j' = some r' → storedBy j' = storedBy j → j' = j) ∧
    ∀ (visit : Traversal (Int × FrameInferenceResult)) (pts now : Int), 0 ≤ pts ∧ pts < 2 ^ 63 →
      (∀ r, .worker (.updateCachedInferenceResult r) ∈ calls → r.pts < 2 ^ 63) →
      nearestByPtsInt64 pts (visit.order
        ((({} : StreamBuffer).after calls).purgeExpiredCachedInferenceResultsLocked now).cachedInferenceResults.toList) =
      some (nearestByPts pts (visit.order
        ((({} : StreamBuffer).after calls).purgeExpiredCachedInferenceResultsLocked now).cachedInferenceResults.toList)) := by
  refine ⟨fun visit frameId pts now => takesChosen _ visit frameId pts now, ?_, fun visit pts now hpts hstored => ?_⟩
  · have hsource : ∀ j, ∃ i, ∀ r, deliveredBy calls j = some r → StoredBy (calls.take j) i r := by
      intro j
      cases hd : deliveredBy calls j with
      | none => exact ⟨0, nofun⟩
      | some r =>
        obtain ⟨i, hi⟩ := (exists_storedBy hd).1
        refine ⟨i, fun r' hr' => ?_⟩
        rwa [← Option.some.inj hr']
    choose storedBy hstoredBy using hsource
    refine ⟨storedBy, fun j r hr => ?_⟩
    have hj := hstoredBy j r hr
    refine ⟨hj.lt, hj, (exists_storedBy hr).2, fun j' r' hr' hsame => ?_⟩
    have hj' := hstoredBy j' r' hr'
    rw [hsame] at hj'
    have hbefore := hj'.not_again hr' hj
    have hafter := hj.not_again hr hj'
    omega
  · refine nearestByPtsInt64_eq hpts fun e he => ?_
    rw [(visit.perm _).mem_iff, TreeMap.mem_toList_iff_getElem?_eq_some, lookup_purge] at he
    obtain ⟨-, -, i, hi⟩ := sourced calls e.1 e.2 he.1
    exact hstored e.2 (List.mem_of_getElem? hi.call)

/-- A packet gets the nearer one of two results in its window, a later one with the frame id of that result gets
none, and a third one gets the other result. -/
theorem cachedResults_delivered_nearer :
    deliveredBy [.worker (.updateCachedInferenceResult { frameId := 0, pts := 1000, expireAtMonoMs := 50 }),
      .worker (.updateCachedInferenceResult { frameId := 3, pts := 13000, expireAtMonoMs := 50 }),
      .takeCachedInferenceResult { nowMonoMs := 20 } 0 8000, .takeCachedInferenceResult { nowMonoMs := 50 } 3 (-1),
      .takeCachedInferenceResult { nowMonoMs := 50 } 0 1000] 2 =
        some { frameId := 3, pts := 13000, expireAtMonoMs := 50 } ∧
    ∃ i < 4, StoredBy ([.worker (.updateCachedInferenceResult { frameId := 0, pts := 1000, expireAtMonoMs := 50 }),
      .worker (.updateCachedInferenceResult { frameId := 3, pts := 13000, expireAtMonoMs := 50 }),
      .takeCachedInferenceResult { nowMonoMs := 20 } 0 8000, .takeCachedInferenceResult { nowMonoMs := 50 } 3 (-1)])
        i { frameId := 0, pts := 1000, expireAtMonoMs := 50 } := by
  have hlast : deliveredBy
      [.worker (.updateCachedInferenceResult { frameId := 0, pts := 1000, expireAtMonoMs := 50 }),
        .worker (.updateCachedInferenceResult { frameId := 3, pts := 13000, expireAtMonoMs := 50 }),
        .takeCachedInferenceResult { nowMonoMs := 20 } 0 8000, .takeCachedInferenceResult { nowMonoMs := 50 } 3 (-1),
        .takeCachedInferenceResult { nowMonoMs := 50 } 0 1000] 4 =
      some { frameId := 0, pts := 1000, expireAtMonoMs := 50 } := by decide +kernel
  obtain ⟨-, ⟨storedBy, hstoredBy⟩, -⟩ := cachedResults_delivered _
  obtain ⟨hlt, hstored, -⟩ := hstoredBy 4 _ hlast
  exact ⟨by decide +kernel, storedBy 4, hlt, hstored⟩

end MediaAgent
