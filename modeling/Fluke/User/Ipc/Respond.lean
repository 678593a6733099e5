import Fluke.User.Ipc.Meeting

/-!
# Responses

A response ends the call that the responder has got last. Whatever becomes of it, the caller is
ready or runs, and the responder owes nothing any more.
-/

namespace Fluke

open Outcome

/-- What the caller and the responder return with. -/
inductive Answer (t caller : ThreadId) (k : Kernel) : Flow (Result ℕ) × Kernel → Prop
  | registers {k' : Kernel} (hmode : k.userContext.a3 &&& ipcCallRxstr = 0)
      (hcaller : (k'.thread caller).ctx = { (k.thread caller).ctx with
        r0 := k.userContext.a0, a2 := k.userContext.a1 }) :
      Answer t caller k (.returns (.ok 0), k')
  | unexpected {k' : Kernel} (hmode : k.userContext.a3 &&& ipcCallRxstr ≠ 0)
      (hcallerMode : (k.thread caller).ctx.a3 &&& ipcCallRxstr = 0)
      (hcaller : (k'.thread caller).ctx = { (k.thread caller).ctx with
        r0 := ErrorCode.ipcIo.negated }) :
      Answer t caller k (.returns (.error .EINVAL), k')
  | large {k' : Kernel} (hmode : k.userContext.a3 &&& ipcCallRxstr ≠ 0)
      (hcallerMode : (k.thread caller).ctx.a3 &&& ipcCallRxstr ≠ 0)
      (hlen : k.userContext.a2 > (k.thread caller).ctx.a2)
      (hcaller : (k'.thread caller).ctx = { (k.thread caller).ctx with
        r0 := ErrorCode.ipcIo.negated }) :
      Answer t caller k (.returns (.error .E2BIG), k')
  | string {k' : Kernel} (hmode : k.userContext.a3 &&& ipcCallRxstr ≠ 0)
      (hcallerMode : (k.thread caller).ctx.a3 &&& ipcCallRxstr ≠ 0)
      (hlen : k.userContext.a2 ≤ (k.thread caller).ctx.a2)
      (hcaller : (k'.thread caller).ctx = { (k.thread caller).ctx with
        r0 := k.userContext.a0, a2 := k.userContext.a2 })
      (hresponder : (k'.thread t).ctx = { k.userContext with r0 := 0 }) :
      Answer t caller k (.exits, k')
  | failed {k' : Kernel} (hmode : k.userContext.a3 &&& ipcCallRxstr ≠ 0)
      (hcallerMode : (k.thread caller).ctx.a3 &&& ipcCallRxstr ≠ 0)
      (hlen : k.userContext.a2 ≤ (k.thread caller).ctx.a2)
      (hcaller : (k'.thread caller).ctx.r0 = ErrorCode.ipcIo.negated ∧
          (k'.thread t).ctx.r0 = ErrorCode.EFAULT.negated ∨
        (k'.thread caller).ctx.r0 = ErrorCode.EFAULT.negated ∧
          (k'.thread t).ctx.r0 = ErrorCode.ipcIo.negated) :
      Answer t caller k (.exits, k')

/-- The response to the caller, and what it leaves alone -/
structure Responded (t caller : ThreadId) (k : Kernel) (r : Flow (Result ℕ) × Kernel) : Prop where
  returns : r.1 ≠ .exits → r.2.currentThread = k.currentThread
  ipcCaller : ∀ m, (r.2.thread m).ipcCaller = if m = t then none else (k.thread m).ipcCaller
  ctx : ∀ m, m ≠ t → m ≠ caller → (r.2.thread m).ctx = (k.thread m).ctx
  channel : ∀ i c, r.2.queue (.channel i c) = k.queue (.channel i c)
  irq : ∀ n, ∃ woken : List ThreadId, (∀ m ∈ woken, (k.thread m).timeout < k.clock 0) ∧
    r.2.queue (.irq n) = (k.queue (.irq n)).filter (· ∉ woken)
  sleeping : ∀ m, (r.2.thread m).state = .sleeping → (k.thread m).state = .sleeping
  objects : ObjectsKept k r.2
  answer : Answer t caller k r

section

variable {k : Kernel} {place : ThreadId → Place} {t caller : ThreadId}

/-- The caller is ready, and the responder goes on. -/
lemma Placed.answered (h : Placed k place) (hno : ∀ m, place m ≠ .floating)
    (hcaller : place caller = .calling t) (ctx : Registers) {result : Result ℕ}
    (hanswer : ∀ k' : Kernel, (k'.thread caller).ctx = ctx →
      Answer t caller k (.returns result, k')) :
    ∃ k', ((k.released caller t).setCtx caller ctx).scheduleReady caller = .ok k' ∧
      Settled k' ∧ Responded t caller k (.returns result, k') := by
  have h₁ := (h.released hcaller).setCtx caller ctx
  have hfloating : Function.update place caller .floating caller = .floating :=
    Function.update_self _ _ _
  have hthread : ∀ m, m ≠ caller →
      ((((k.released caller t).setCtx caller ctx).readied caller).thread m) =
        (k.released caller t).thread m := by
    intro m hm
    simp [Kernel.readied, Kernel.setCtx, hm]
  have hself : ((((k.released caller t).setCtx caller ctx).readied caller).thread caller).ctx =
      ctx := by
    simp [Kernel.readied, Kernel.setCtx]
  refine ⟨_, h₁.scheduleReady hfloating, ⟨_, h₁.readied hfloating, fun m hm => ?_⟩,
    ⟨fun _ => rfl, fun m => ?_, fun m _ hm => ?_, fun i c => rfl, fun n => ⟨[], by simp, ?_⟩,
      fun m hm => ?_, ⟨rfl, rfl, rfl, rfl, rfl⟩, hanswer _ hself⟩⟩
  · rw [Function.update_idem, Function.update_apply] at hm
    split_ifs at hm
    exact hno m hm
  · by_cases hm : m = caller
    · subst hm
      simp [Kernel.readied, Kernel.setCtx, Kernel.released_thread]
    · rw [hthread m hm, Kernel.released_thread]
  · rw [hthread m hm, Kernel.released_thread]
  · simp
    rfl
  · by_cases hmc : m = caller
    · subst hmc
      simp [Kernel.readied] at hm
    · rw [hthread m hmc, Kernel.released_thread] at hm
      simpa [hmc] using hm

/-- The responder is saved, and the string is copied to the caller. -/
lemma Placed.respondString (h : Placed k place) (hno : ∀ m, place m ≠ .floating)
    (hcurrent : k.currentThread = some t) (hcaller : place caller = .calling t)
    (hmode : k.userContext.a3 &&& ipcCallRxstr ≠ 0)
    (hcallerMode : (k.thread caller).ctx.a3 &&& ipcCallRxstr ≠ 0)
    (hlen : k.userContext.a2 ≤ (k.thread caller).ctx.a2) :
    ∃ r, (k.released caller t).respondString caller k.userContext.a2 = .ok r ∧ Settled r.2 ∧
      Responded t caller k r := by
  have hrunning : place t = .running := (h.current t).mp hcurrent
  have hne : t ≠ caller := by
    rintro rfl
    rw [hrunning] at hcaller
    cases hcaller
  have h₁ := h.released hcaller
  obtain ⟨hsave, hrunning₁⟩ := h₁.cpuContextSave hcurrent
  have h₂ := h₁.saved hrunning₁
  have hfloating : ∀ m, Function.update (Function.update place caller .floating) t .floating m =
      .floating ↔ m = t ∨ m = caller := by
    intro m
    rw [Function.update_apply, Function.update_apply]
    split_ifs with h1 h2
    · simp [h1]
    · simp [h2]
    · simp [h1, h2, hno m]
  have hctx : ∀ m, (((k.released caller t).saved t).thread m).ctx =
      if m = t then k.userContext else (k.thread m).ctx := by
    intro m
    by_cases hm : m = t
    · subst hm
      simp [Kernel.saved]
      rfl
    · simp [Kernel.saved, Kernel.released_thread, hm]
  have hipcCaller : ∀ m, (((k.released caller t).saved t).thread m).ipcCaller =
      if m = t then none else (k.thread m).ipcCaller := by
    intro m
    by_cases hm : m = t
    · subst hm
      simp [Kernel.saved, Kernel.released_thread]
    · simp [Kernel.saved, Kernel.released_thread, hm]
  have htimeout : ∀ m, (((k.released caller t).saved t).thread m).timeout =
      (k.thread m).timeout := by
    intro m
    by_cases hm : m = t
    · subst hm
      simp [Kernel.saved, Kernel.released_thread]
    · simp [Kernel.saved, Kernel.released_thread, hm]
  have hsleeping : ∀ m, (((k.released caller t).saved t).thread m).state = .sleeping →
      (k.thread m).state = .sleeping := by
    intro m hm
    by_cases hmt : m = t
    · subst hmt
      simp [Kernel.saved] at hm
    · by_cases hmc : m = caller
      · subst hmc
        simp [Kernel.saved, Kernel.released_thread, hmt] at hm
      · simpa [Kernel.saved, Kernel.released_thread, hmt, hmc] using hm
  unfold Kernel.respondString
  rw [hsave, ok_bind]
  dsimp only
  rcases h₂.copyString hne hfloating rfl with heq | ⟨k', heq, hsettled, hexchanged, hfailed⟩
  · rw [heq, ok_bind]
    generalize hcopied : ((k.released caller t).saved t).memcpyUserUserCatchFault.2 = k₃
    have hthread₃ : ∀ m, k₃.thread m = ((k.released caller t).saved t).thread m := by
      rw [← hcopied]
      exact fun _ => rfl
    have hobjects₃ : ObjectsKept k k₃ := by
      rw [← hcopied]
      exact ⟨rfl, rfl, rfl, rfl, rfl⟩
    have hqueue₃ : ∀ q, k₃.queue q = k.queue q := by
      rw [← hcopied]
      exact fun _ => rfl
    have hnone₃ : k₃.currentThread = none := by
      rw [← hcopied]
      rfl
    have h₃ : Placed k₃ (Function.update (Function.update place caller .floating) t .floating) := by
      rw [← hcopied]
      exact h₂.congr (fun _ => ⟨rfl, rfl, rfl⟩) rfl rfl rfl rfl
    dsimp only
    have h₄ := (h₃.setCtx caller { (k₃.thread caller).ctx with
      r0 := (k₃.thread t).ctx.a0, a2 := k.userContext.a2 }).setR0 t 0
    generalize hanswered : (k₃.setCtx caller { (k₃.thread caller).ctx with
      r0 := (k₃.thread t).ctx.a0, a2 := k.userContext.a2 }).setR0 t 0 = k₄ at h₄
    have ht₄ := (hfloating t).mpr (.inl rfl)
    have h₅ := h₄.readied ht₄
    have hcaller₅ : Function.update (Function.update (Function.update place caller .floating) t
        .floating) t (.queued .run) caller = .floating := by
      rw [Function.update_of_ne hne.symm]
      exact (hfloating caller).mpr (.inr rfl)
    have hnone₅ : (k₄.readied t).currentThread = none := by
      rw [← hanswered]
      exact hnone₃
    have hctx₄ : ∀ m, (k₄.thread m).ctx = if m = t then { k.userContext with r0 := 0 }
        else if m = caller then { (k.thread caller).ctx with
          r0 := k.userContext.a0, a2 := k.userContext.a2 }
        else (k.thread m).ctx := by
      intro m
      have ht₃ : (k₃.thread t).ctx = k.userContext := by rw [hthread₃, hctx, if_pos rfl]
      rw [← hanswered]
      by_cases h1 : m = t
      · subst h1
        simp [Kernel.setR0, Kernel.setCtx, hne, ht₃]
      · have hm₃ : (k₃.thread m).ctx = (k.thread m).ctx := by rw [hthread₃, hctx, if_neg h1]
        by_cases h2 : m = caller
        · subst h2
          simp [Kernel.setR0, Kernel.setCtx, h1, ht₃, hm₃]
        · simp [Kernel.setR0, Kernel.setCtx, h1, h2, hm₃]
    have hipcCaller₄ : ∀ m, (k₄.thread m).ipcCaller =
        if m = t then none else (k.thread m).ipcCaller := by
      intro m
      rw [← hipcCaller, ← hthread₃, ← hanswered]
      by_cases h1 : m = t
      · subst h1
        simp [Kernel.setR0, Kernel.setCtx, hne]
      · by_cases h2 : m = caller
        · subst h2
          simp [Kernel.setR0, Kernel.setCtx, h1]
        · simp [Kernel.setR0, Kernel.setCtx, h1, h2]
    have hstate₄ : ∀ m, (k₄.thread m).state = (k₃.thread m).state := by
      intro m
      rw [← hanswered]
      by_cases h1 : m = t
      · subst h1
        simp [Kernel.setR0, Kernel.setCtx, hne]
      · by_cases h2 : m = caller
        · subst h2
          simp [Kernel.setR0, Kernel.setCtx, h1]
        · simp [Kernel.setR0, Kernel.setCtx, h1, h2]
    have hthread₆ : ∀ m, (((k₄.readied t).restored caller).thread m).ctx = (k₄.thread m).ctx ∧
        (((k₄.readied t).restored caller).thread m).ipcCaller = (k₄.thread m).ipcCaller := by
      intro m
      simp only [Kernel.restored, Kernel.readied, Kernel.setThread_thread,
        Kernel.setCurrentThread_thread, Kernel.setQueue_thread]
      split_ifs with h1 h2 h2
      · rw [h1, ← h2]
        exact ⟨rfl, rfl⟩
      · rw [h1]
        exact ⟨rfl, rfl⟩
      · rw [h2]
        exact ⟨rfl, rfl⟩
      · exact ⟨rfl, rfl⟩
    have hqueue₆ : ∀ q, q ≠ .run → ((k₄.readied t).restored caller).queue q = k.queue q := by
      intro q hq
      rw [← hqueue₃, ← hanswered]
      simp [Kernel.restored, Kernel.readied, Kernel.setR0, Kernel.setCtx, hq]
    have hobjects₆ : ObjectsKept k₃ ((k₄.readied t).restored caller) := by
      rw [← hanswered]
      exact ⟨rfl, rfl, rfl, rfl, rfl⟩
    rw [h₄.scheduleReady ht₄, ok_bind, h₅.cpuContextRestoreAndExit hcaller₅ hnone₅, ok_bind]
    refine ⟨_, rfl, ⟨_, h₅.restored hcaller₅ hnone₅, fun m hm => ?_⟩,
      ⟨fun hexits => absurd rfl hexits, fun m => ?_, fun m h1 h2 => ?_, fun i c => ?_, fun n => ?_,
        fun m hm => ?_, hobjects₃.trans hobjects₆, .string hmode hcallerMode hlen ?_ ?_⟩⟩
    · rw [Function.update_apply, Function.update_apply] at hm
      split_ifs at hm with h1 h2
      exact ((hfloating m).mp hm).elim h2 h1
    · rw [(hthread₆ m).2, hipcCaller₄]
    · rw [(hthread₆ m).1, hctx₄, if_neg h1, if_neg h2]
    · exact hqueue₆ _ (by simp)
    · exact ⟨[], by simp, by simpa using hqueue₆ (.irq n) (by simp)⟩
    · refine hsleeping m ?_
      rw [← hthread₃, ← hstate₄]
      by_cases hmc : m = caller
      · subst hmc
        simp [Kernel.restored] at hm
      · by_cases hmt : m = t
        · subst hmt
          simp [Kernel.restored, Kernel.readied, hmc] at hm
        · simpa [Kernel.restored, Kernel.readied, hmc, hmt] using hm
    · rw [(hthread₆ caller).1, hctx₄, if_neg hne.symm, if_pos rfl]
    · rw [(hthread₆ t).1, hctx₄, if_pos rfl]
  · have hobjects : ObjectsKept k ((k.released caller t).saved t) := ⟨rfl, rfl, rfl, rfl, rfl⟩
    have hcallers : ∀ m, (k'.thread m).ipcCaller =
        (((k.released caller t).saved t).thread m).ipcCaller := by
      rcases hfailed with hfailed | hfailed
      · exact hfailed.ipcCaller
      · exact hfailed.ipcCaller
    rw [heq, ok_bind]
    refine ⟨_, rfl, hsettled, ⟨fun hexits => absurd rfl hexits, fun m => ?_, fun m h1 h2 => ?_,
      fun i c => hexchanged.channel i c, fun n => ?_,
      fun m hm => hsleeping m (hexchanged.sleeping m hm), hobjects.trans hexchanged.objects, ?_⟩⟩
    · rw [hcallers, hipcCaller]
    · rw [hexchanged.ctx m h1 h2, hctx, if_neg h1]
    · obtain ⟨woken, hexpired, hfilter⟩ := hexchanged.irq n
      refine ⟨woken, fun m hm => ?_, hfilter⟩
      rw [← htimeout m]
      exact hexpired m hm
    · refine .failed hmode hcallerMode hlen ?_
      rcases hfailed with hfailed | hfailed
      · exact .inl ⟨hfailed.innocent, hfailed.guilty⟩
      · exact .inr ⟨hfailed.guilty, hfailed.innocent⟩

/-- A response of the thread that runs -/
lemma Kernel.ipcRespond_spec (hsettled : Settled k) (hcurrent : k.currentThread = some t) :
    ∃ r, k.ipcRespond k.userContext = .ok r ∧ Settled r.2 ∧
      ((k.thread t).ipcCaller = none ∧ r = (.returns (.error .ENODEV), k) ∨
        ∃ caller, (k.thread t).ipcCaller = some caller ∧ Responded t caller k r) := by
  obtain ⟨place, h, hno⟩ := hsettled
  unfold Kernel.ipcRespond
  rw [hcurrent]
  dsimp only
  cases hcaller : (k.thread t).ipcCaller with
  | none => exact ⟨_, rfl, ⟨place, h, hno⟩, .inl ⟨rfl, rfl⟩⟩
  | some caller =>
    have hplace : place caller = .calling t := (h.caller t caller).mp hcaller
    have hne : caller ≠ t := by
      rintro rfl
      rw [(h.current caller).mp hcurrent] at hplace
      cases hplace
    have hstate : ((k.setIpcCaller t none).thread caller).state = .calling := by
      have hkept : ((k.setIpcCaller t none).thread caller).state = (k.thread caller).state := by
        simp [Kernel.setIpcCaller, hne]
      rw [hkept, h.state, hplace, Place.state]
    have hctx : ((k.released caller t).thread caller).ctx = (k.thread caller).ctx := by
      rw [Kernel.released_thread]
    dsimp only
    rw [assert, if_pos (decide_eq_true hstate), ok_bind]
    change ∃ r, (if k.userContext.a3 &&& ipcCallRxstr = 0 then do
        let k' ← ((k.released caller t).setCtx caller
          { ((k.released caller t).thread caller).ctx with
            r0 := k.userContext.a0, a2 := k.userContext.a1 }).scheduleReady caller
        .ok (.returns (.ok 0), k')
      else if ((k.released caller t).thread caller).ctx.a3 &&& ipcCallRxstr = 0 then
        (k.released caller t).responseError caller .EINVAL
      else if k.userContext.a2 > ((k.released caller t).thread caller).ctx.a2 then
        (k.released caller t).responseError caller .E2BIG
      else (k.released caller t).respondString caller k.userContext.a2) = .ok r ∧ _
    rw [hctx]
    split_ifs with hmode hcallerMode hlen
    · obtain ⟨k', heq, hsettled, hresponded⟩ := h.answered hno hplace { (k.thread caller).ctx with
        r0 := k.userContext.a0, a2 := k.userContext.a1 } fun _ => .registers hmode
      exact ⟨_, by rw [heq]; rfl, hsettled, .inr ⟨caller, rfl, hresponded⟩⟩
    · obtain ⟨k', heq, hsettled, hresponded⟩ := h.answered hno hplace { (k.thread caller).ctx with
        r0 := ErrorCode.ipcIo.negated } fun _ => .unexpected hmode hcallerMode
      rw [Kernel.responseError, Kernel.setR0, hctx, heq]
      exact ⟨_, rfl, hsettled, .inr ⟨caller, rfl, hresponded⟩⟩
    · obtain ⟨k', heq, hsettled, hresponded⟩ := h.answered hno hplace { (k.thread caller).ctx with
        r0 := ErrorCode.ipcIo.negated } fun _ => .large hmode hcallerMode hlen
      rw [Kernel.responseError, Kernel.setR0, hctx, heq]
      exact ⟨_, rfl, hsettled, .inr ⟨caller, rfl, hresponded⟩⟩
    · obtain ⟨r, heq, hsettled, hresponded⟩ := h.respondString hno hcurrent hplace hmode
        hcallerMode (not_lt.mp hlen)
      exact ⟨r, heq, hsettled, .inr ⟨caller, rfl, hresponded⟩⟩

/-- Nothing happens to the channels. -/
lemma IpcsOk.responded {r : Flow (Result ℕ) × Kernel} (h : IpcsOk k) (hsettled : Settled k)
    (hcurrent : k.currentThread = some t) (hcaller : (k.thread t).ipcCaller = some caller)
    (hr : Responded t caller k r) : IpcsOk r.2 := by
  obtain ⟨place, hplaced, -⟩ := hsettled
  refine h.congr hr.objects.ipcs hr.objects.ipcCount.ge hr.channel fun i c m hm => ?_
  have hplace := (hplaced.queue _ m).mp hm
  refine hr.ctx m ?_ ?_
  · rintro rfl
    rw [(hplaced.current m).mp hcurrent] at hplace
    cases hplace
  · rintro rfl
    rw [(hplaced.caller t m).mp hcaller] at hplace
    cases hplace

end

end Fluke
