import PngDecode.Lib.Lts
import Mathlib.Logic.Function.Basic

/-! # The once protocol of `x86.c`

`x86_check_features` in the `USE_360HACK` build, one atomic access a step. Any number of threads
call it, and each of them any number of times. -/

namespace PngDecode.Zlib
open PngDecode.Lib

/-! ## The code -/

structure CpuRegs where
  eax : UInt32
  ebx : UInt32
  ecx : UInt32
  edx : UInt32
deriving DecidableEq, Repr

structure Shared where
  onceControl : Int
  x86CpuEnableSsse3 : UInt32
  x86CpuEnableSimd : UInt32
deriving DecidableEq, Repr

def logicalAnd (a b c : UInt32) : UInt32 := if a ≠ 0 ∧ b ≠ 0 ∧ c ≠ 0 then 1 else 0

inductive InitPc where
  | cpuid
  | hasSse2 (regs : CpuRegs)
  | hasSsse3 (regs : CpuRegs) (sse2 : UInt32)
  | hasSse42 (regs : CpuRegs) (sse2 ssse3 : UInt32)
  | hasPclmulqdq (regs : CpuRegs) (sse2 ssse3 sse42 : UInt32)
  | storeSsse3 (regs : CpuRegs) (sse2 ssse3 sse42 pclmulqdq : UInt32)
  | storeSimd (regs : CpuRegs) (sse2 sse42 pclmulqdq : UInt32)
  | leave (regs : CpuRegs)

inductive Pc where
  | outside
  | fastPath
  | compareExchange
  | switchToThread
  | callInit
  | init (pc : InitPc)
  | exchange
  | returning

inductive Act where
  | call
  | internal
  | enterInit
  | leaveInit (regs : CpuRegs)
  | ret
deriving DecidableEq

inductive ThreadStep : Shared → Pc → Act → Shared → Pc → Prop where
  | call (m) : ThreadStep m .outside .call m .fastPath
  -- if (*once_control != 1)
  | fastDone (m) (once : m.onceControl = 1) : ThreadStep m .fastPath .internal m .returning
  | fastSlow (m) (once : m.onceControl ≠ 1) : ThreadStep m .fastPath .internal m .compareExchange
  -- InterlockedCompareExchange(once_control, 2, 0)
  | case0 (m) (once : m.onceControl = 0) :
      ThreadStep m .compareExchange .internal { m with onceControl := 2 } .callInit
  | case1 (m) (once : m.onceControl = 1) : ThreadStep m .compareExchange .internal m .returning
  | default (m) (once0 : m.onceControl ≠ 0) (once1 : m.onceControl ≠ 1) :
      ThreadStep m .compareExchange .internal m .switchToThread
  | switchToThread (m) : ThreadStep m .switchToThread .internal m .compareExchange
  -- init_routine()
  | enterInit (m) : ThreadStep m .callInit .enterInit m (.init .cpuid)
  | cpuid (m) (regs : CpuRegs) : ThreadStep m (.init .cpuid) .internal m (.init (.hasSse2 regs))
  | hasSse2 (m regs) : ThreadStep m (.init (.hasSse2 regs)) .internal m
      (.init (.hasSsse3 regs (regs.edx &&& 0x4000000)))
  | hasSsse3 (m regs sse2) : ThreadStep m (.init (.hasSsse3 regs sse2)) .internal m
      (.init (.hasSse42 regs sse2 (regs.ecx &&& 0x000200)))
  | hasSse42 (m regs sse2 ssse3) : ThreadStep m (.init (.hasSse42 regs sse2 ssse3)) .internal m
      (.init (.hasPclmulqdq regs sse2 ssse3 (regs.ecx &&& 0x100000)))
  | hasPclmulqdq (m regs sse2 ssse3 sse42) :
      ThreadStep m (.init (.hasPclmulqdq regs sse2 ssse3 sse42)) .internal m
        (.init (.storeSsse3 regs sse2 ssse3 sse42 (regs.ecx &&& 0x2)))
  | storeSsse3 (m regs sse2 ssse3 sse42 pclmulqdq) :
      ThreadStep m (.init (.storeSsse3 regs sse2 ssse3 sse42 pclmulqdq)) .internal
        { m with x86CpuEnableSsse3 := ssse3 } (.init (.storeSimd regs sse2 sse42 pclmulqdq))
  | storeSimd (m regs sse2 sse42 pclmulqdq) :
      ThreadStep m (.init (.storeSimd regs sse2 sse42 pclmulqdq)) .internal
        { m with x86CpuEnableSimd := logicalAnd sse2 sse42 pclmulqdq } (.init (.leave regs))
  | leaveInit (m regs) : ThreadStep m (.init (.leave regs)) (.leaveInit regs) m .exchange
  -- InterlockedExchange(once_control, 1)
  | exchange (m) : ThreadStep m .exchange .internal { m with onceControl := 1 } .returning
  | ret (m) : ThreadStep m .returning .ret m .outside

structure Threads (T : Type*) where
  shared : Shared
  pc : T → Pc

def x86CheckFeatures (T : Type*) [DecidableEq T] : Lts (Threads T) (T × Act) where
  init s := s.shared = ⟨0, 0, 0⟩ ∧ ∀ t, s.pc t = .outside
  step s l s' := ∃ m pc, ThreadStep s.shared (s.pc l.1) l.2 m pc ∧
    s' = ⟨m, Function.update s.pc l.1 pc⟩

/-! ## The protocol -/

def FlagsOf (regs : CpuRegs) (m : Shared) : Prop :=
  m.x86CpuEnableSsse3 = regs.ecx &&& 0x000200 ∧
  m.x86CpuEnableSimd =
    logicalAnd (regs.edx &&& 0x4000000) (regs.ecx &&& 0x100000) (regs.ecx &&& 0x2)

/-- The locals of the initialiser are the bits of `regs`, and the flags stored so far theirs. -/
def InitPc.Sound (m : Shared) : InitPc → Prop
  | .cpuid => True
  | .hasSse2 _ => True
  | .hasSsse3 regs sse2 => sse2 = regs.edx &&& 0x4000000
  | .hasSse42 regs sse2 ssse3 => sse2 = regs.edx &&& 0x4000000 ∧ ssse3 = regs.ecx &&& 0x000200
  | .hasPclmulqdq regs sse2 ssse3 sse42 => sse2 = regs.edx &&& 0x4000000 ∧
      ssse3 = regs.ecx &&& 0x000200 ∧ sse42 = regs.ecx &&& 0x100000
  | .storeSsse3 regs sse2 ssse3 sse42 pclmulqdq => sse2 = regs.edx &&& 0x4000000 ∧
      ssse3 = regs.ecx &&& 0x000200 ∧ sse42 = regs.ecx &&& 0x100000 ∧ pclmulqdq = regs.ecx &&& 0x2
  | .storeSimd regs sse2 sse42 pclmulqdq => sse2 = regs.edx &&& 0x4000000 ∧
      sse42 = regs.ecx &&& 0x100000 ∧ pclmulqdq = regs.ecx &&& 0x2 ∧
      m.x86CpuEnableSsse3 = regs.ecx &&& 0x000200
  | .leave regs => FlagsOf regs m

/-- The thread holds the right to initialise: it won the compare-exchange and has not yet
published the result. -/
def Pc.Owner : Pc → Prop
  | .callInit | .init _ | .exchange => True
  | _ => False

variable {T : Type*} [DecidableEq T]

def enters (w : List (T × Act)) : Nat := w.countP fun l => l.2 = .enterInit

/-- The thread that has entered the initialiser has left it again, with `regs` from `cpuid`. -/
def Completed (w : List (T × Act)) (regs : CpuRegs) : Prop :=
  ∃ t before after, w = before ++ (t, .leaveInit regs) :: after ∧ (t, .enterInit) ∈ before

def OwnerProgress (w : List (T × Act)) (m : Shared) (t : T) : Pc → Prop
  | .callInit => enters w = 0
  | .init pc => enters w = 1 ∧ (t, .enterInit) ∈ w ∧ pc.Sound m
  | .exchange => enters w = 1 ∧ ∃ regs, Completed w regs ∧ FlagsOf regs m
  | _ => False

structure Finished (regs : CpuRegs) (w : List (T × Act)) (s : Threads T) : Prop where
  once : s.shared.onceControl = 1
  noOwner : ∀ t, ¬ (s.pc t).Owner
  one : enters w = 1
  completed : Completed w regs
  flags : FlagsOf regs s.shared

/-- The three phases of a run, read off `once_control`. -/
inductive Phase (w : List (T × Act)) (s : Threads T) : Prop where
  | fresh (once : s.shared.onceControl = 0) (noOwner : ∀ t, ¬ (s.pc t).Owner)
      (waiting : ∀ t, s.pc t ≠ .returning) (none : enters w = 0)
  | running (owner : T) (once : s.shared.onceControl = 2)
      (progress : OwnerProgress w s.shared owner (s.pc owner))
      (unique : ∀ t, (s.pc t).Owner → t = owner) (waiting : ∀ t, s.pc t ≠ .returning)
  | finished (regs : CpuRegs) (done : Finished regs w s)

section Histories
omit [DecidableEq T]
variable {w : List (T × Act)} {l : T × Act} {regs : CpuRegs} {m : Shared} {owner : T} {p : Pc}

theorem enters_snoc (w : List (T × Act)) (l : T × Act) :
    enters (w ++ [l]) = enters w + if l.2 = .enterInit then 1 else 0 := by
  simp [enters, List.countP_append, List.countP_singleton]

theorem enters_other (other : l.2 ≠ .enterInit) : enters (w ++ [l]) = enters w := by
  rw [enters_snoc, if_neg other, Nat.add_zero]

theorem Completed.snoc (done : Completed w regs) (l : T × Act) : Completed (w ++ [l]) regs := by
  obtain ⟨t, before, after, rfl, entered⟩ := done
  exact ⟨t, before, after ++ [l], by simp, entered⟩

theorem OwnerProgress.snoc (progress : OwnerProgress w m owner p) (other : l.2 ≠ .enterInit) :
    OwnerProgress (w ++ [l]) m owner p := by
  have count := enters_other (w := w) other
  cases p with
  | callInit => exact count.trans progress
  | init pc =>
    obtain ⟨one, entered, sound⟩ := progress
    exact ⟨count.trans one, List.mem_append_left _ entered, sound⟩
  | exchange =>
    obtain ⟨one, regs, done, flags⟩ := progress
    exact ⟨count.trans one, regs, done.snoc l, flags⟩
  | _ => exact progress.elim

theorem OwnerProgress.owns (progress : OwnerProgress w m owner p) : p.Owner := by
  cases p <;> trivial

/-- Everything a thread can do: look at `once_control` and wait or return, win the exchange,
work as the owner, or publish the result. -/
theorem ThreadStep.kinds {m' : Shared} {p' : Pc} {a : Act} (step : ThreadStep m p a m' p') :
    (¬ p.Owner ∧ ¬ p'.Owner ∧ m' = m ∧ a ≠ .enterInit ∧
      (p' = .returning → m.onceControl = 1)) ∨
    (¬ p.Owner ∧ m.onceControl = 0 ∧ m' = { m with onceControl := 2 } ∧ a = .internal ∧
      p' = .callInit) ∨
    (p.Owner ∧ p'.Owner ∧ m'.onceControl = m.onceControl ∧
      ∀ (w : List (T × Act)) t, OwnerProgress w m t p → OwnerProgress (w ++ [(t, a)]) m' t p') ∨
    (p = .exchange ∧ m' = { m with onceControl := 1 } ∧ a = .internal ∧ p' = .returning) := by
  cases step with
  | case0 once => exact .inr (.inl ⟨id, once, rfl, rfl, rfl⟩)
  | exchange => exact .inr (.inr (.inr ⟨rfl, rfl, rfl, rfl⟩))
  | call => exact .inl ⟨id, id, rfl, by simp, by simp⟩
  | fastDone once => exact .inl ⟨id, id, rfl, by simp, fun _ => once⟩
  | fastSlow once => exact .inl ⟨id, id, rfl, by simp, by simp⟩
  | case1 once => exact .inl ⟨id, id, rfl, by simp, fun _ => once⟩
  | default once0 once1 => exact .inl ⟨id, id, rfl, by simp, by simp⟩
  | switchToThread => exact .inl ⟨id, id, rfl, by simp, by simp⟩
  | ret => exact .inl ⟨id, id, rfl, by simp, by simp⟩
  | leaveInit regs =>
    refine .inr (.inr (.inl ⟨trivial, trivial, rfl, fun w t progress => ?_⟩))
    obtain ⟨one, entered, flags⟩ := progress
    exact ⟨(enters_other (by simp)).trans one, regs, ⟨t, w, [], rfl, entered⟩, flags⟩
  | enterInit =>
    refine .inr (.inr (.inl ⟨trivial, trivial, rfl, fun w t progress => ?_⟩))
    exact ⟨by rw [enters_snoc, show enters w = 0 from progress]; rfl, by simp, trivial⟩
  | storeSimd regs sse2 sse42 pclmulqdq =>
    refine .inr (.inr (.inl ⟨trivial, trivial, rfl, fun w t progress => ?_⟩))
    obtain ⟨one, entered, h2, h42, hp, h3⟩ := progress
    exact ⟨(enters_other (by simp)).trans one, List.mem_append_left _ entered, h3,
      by rw [h2, h42, hp]⟩
  | _ =>
    refine .inr (.inr (.inl ⟨trivial, trivial, rfl, fun w t progress => ?_⟩))
    simp_all [OwnerProgress, InitPc.Sound, enters_snoc]

end Histories

theorem Finished.step {regs : CpuRegs} {w : List (T × Act)} {s s' : Threads T} {l : T × Act}
    (finished : Finished regs w s) (step : (x86CheckFeatures T).step s l s') :
    Finished regs (w ++ [l]) s' := by
  obtain ⟨once, noOwner, one, completed, flags⟩ := finished
  obtain ⟨m, pc, step, rfl⟩ := step
  rcases step.kinds (T := T) with ⟨-, now, rfl, other, -⟩ | ⟨-, zero, -⟩ | ⟨was, -⟩ | ⟨was, -⟩
  · refine ⟨once, ?_, (enters_other other).trans one, completed.snoc l, flags⟩
    exact (Function.forall_update_iff s.pc fun _ p => ¬ p.Owner).mpr ⟨now, fun u _ => noOwner u⟩
  · simp [once] at zero
  · exact absurd was (noOwner l.1)
  · exact absurd (by rw [was]; trivial) (noOwner l.1)

theorem Phase.step {w : List (T × Act)} {s s' : Threads T} {l : T × Act} (phase : Phase w s)
    (step : (x86CheckFeatures T).step s l s') : Phase (w ++ [l]) s' := by
  have moved (P : T → Pc → Prop) (p : Pc) := Function.forall_update_iff s.pc (a := l.1) (b := p) P
  cases phase with
  | fresh once noOwner waiting none =>
    obtain ⟨m, pc, step, rfl⟩ := step
    rcases step.kinds (T := T) with ⟨-, now, rfl, other, ready⟩ | ⟨-, -, rfl, internal, rfl⟩ |
      ⟨was, -⟩ | ⟨was, -⟩
    · refine .fresh once ?_ ?_ ((enters_other other).trans none)
      · exact (moved (fun _ p => ¬ p.Owner) pc).mpr ⟨now, fun u _ => noOwner u⟩
      · refine (moved (fun _ p => p ≠ .returning) pc).mpr ⟨fun h => ?_, fun u _ => waiting u⟩
        simp [once] at ready
        exact ready h
    · -- the thread wins the exchange
      refine .running l.1 rfl ?_ ?_ ?_
      · simpa [OwnerProgress, enters_snoc, internal] using none
      · exact (moved (fun u p => p.Owner → u = l.1) _).mpr
          ⟨fun _ => rfl, fun u _ owns => absurd owns (noOwner u)⟩
      · exact (moved (fun _ p => p ≠ .returning) _).mpr ⟨by simp, fun u _ => waiting u⟩
    · exact absurd was (noOwner l.1)
    · exact absurd (by rw [was]; trivial) (noOwner l.1)
  | running owner once progress unique waiting =>
    obtain ⟨m, pc, step, rfl⟩ := step
    rcases step.kinds (T := T) with ⟨was, now, rfl, other, ready⟩ | ⟨-, zero, -⟩ |
      ⟨was, now, same, work⟩ | ⟨was, rfl, internal, rfl⟩
    · have apart : owner ≠ l.1 := fun same => was (same ▸ OwnerProgress.owns progress)
      refine .running owner once ?_ ?_ ?_
      · simpa only [Function.update_of_ne apart] using progress.snoc other
      · exact (moved (fun u p => p.Owner → u = owner) pc).mpr
          ⟨fun owns => absurd owns now, fun u _ => unique u⟩
      · refine (moved (fun _ p => p ≠ .returning) pc).mpr ⟨fun h => ?_, fun u _ => waiting u⟩
        simp [once] at ready
        exact ready h
    · simp [once] at zero
    · obtain rfl := unique l.1 was
      refine .running l.1 (same.trans once) ?_ ?_ ?_
      · simpa only [Function.update_self] using work w l.1 progress
      · exact (moved (fun u p => p.Owner → u = l.1) pc).mpr ⟨fun _ => rfl, fun u _ => unique u⟩
      · exact (moved (fun _ p => p ≠ .returning) pc).mpr
          ⟨fun h => by rw [h] at now; exact now, fun u _ => waiting u⟩
    · -- the owner publishes
      obtain rfl := unique l.1 (by rw [was]; trivial)
      rw [was] at progress
      obtain ⟨one, regs, completed, flags⟩ := progress
      refine .finished regs ⟨rfl, ?_, (enters_other (by simp [internal])).trans one,
        completed.snoc l, flags⟩
      exact (moved (fun _ p => ¬ p.Owner) _).mpr
        ⟨id, fun u apart owns => apart (unique u owns)⟩
  | finished regs done => exact .finished regs (done.step step)

theorem Phase.of_run {w : List (T × Act)} {s : Threads T} (run : (x86CheckFeatures T).Run w s) :
    Phase w s := by
  refine run.invariant (fun s initial => ?_) fun _ _ _ _ phase step => phase.step step
  refine .fresh (by simp [initial.1]) ?_ ?_ rfl
  all_goals intro t; simp [initial.2 t, Pc.Owner]

def OnceMove (a b : Int) : Prop := b = a ∨ (a = 0 ∧ b = 2) ∨ (a = 2 ∧ b = 1)

theorem once_move {w : List (T × Act)} {s s' : Threads T} {l : T × Act}
    (run : (x86CheckFeatures T).Run w s) (step : (x86CheckFeatures T).step s l s') :
    OnceMove s.shared.onceControl s'.shared.onceControl := by
  have phase := Phase.of_run run
  obtain ⟨m, pc, step, rfl⟩ := step
  rcases step.kinds (T := T) with ⟨-, -, rfl, -⟩ | ⟨-, zero, rfl, -⟩ | ⟨-, -, same, -⟩ |
    ⟨was, rfl, -⟩
  · exact .inl rfl
  · exact .inr (.inl ⟨zero, rfl⟩)
  · exact .inl same
  · have owns : (s.pc l.1).Owner := by rw [was]; trivial
    cases phase with
    | fresh once noOwner => exact absurd owns (noOwner _)
    | running owner once => exact .inr (.inr ⟨once, rfl⟩)
    | finished regs done => exact absurd owns (done.noOwner _)

theorem finished_of_return {w : List (T × Act)} {s s' : Threads T} {t : T}
    (run : (x86CheckFeatures T).Run w s) (step : (x86CheckFeatures T).step s (t, .ret) s') :
    ∃ regs, Finished regs w s := by
  obtain ⟨m, pc, step, rfl⟩ := step
  have returning : s.pc t = .returning := by
    generalize s.pc t = p at step
    cases step; rfl
  cases Phase.of_run run with
  | fresh once noOwner waiting => exact absurd returning (waiting t)
  | running owner once progress unique waiting => exact absurd returning (waiting t)
  | finished regs done => exact ⟨regs, done⟩

omit [DecidableEq T] in
theorem enters_le_one {w : List (T × Act)} {s : Threads T} (phase : Phase w s) : enters w ≤ 1 := by
  cases phase with
  | fresh once noOwner waiting none => omega
  | running owner once progress =>
    cases h : s.pc owner <;> simp only [h, OwnerProgress] at progress <;> omega
  | finished regs done => exact Nat.le_of_eq done.one

/-- The once protocol: in every run of any threads, `_x86_check_features` is entered at most once
and `once_control` only moves 0 → 2 → 1. When a call returns, the initialiser has been entered and
has completed, `once_control` is 1, and all of this and the two flags stay for the rest of the
run. -/
theorem x86CheckFeatures_once {w : List (T × Act)} {s : Threads T}
    (run : (x86CheckFeatures T).Run w s) :
    enters w ≤ 1 ∧
    (∀ l s', (x86CheckFeatures T).step s l s' →
      OnceMove s.shared.onceControl s'.shared.onceControl) ∧
    ∀ t s', (x86CheckFeatures T).step s (t, .ret) s' → enters w = 1 ∧
      s.shared.onceControl = 1 ∧ ∃ regs, Completed w regs ∧ FlagsOf regs s.shared ∧
        ∀ v u, (x86CheckFeatures T).Exec s' v u → enters (w ++ (t, .ret) :: v) = 1 ∧
          u.shared.onceControl = 1 ∧ FlagsOf regs u.shared ∧
          u.shared.x86CpuEnableSsse3 = s.shared.x86CpuEnableSsse3 ∧
          u.shared.x86CpuEnableSimd = s.shared.x86CpuEnableSimd := by
  refine ⟨enters_le_one (Phase.of_run run), fun l s' step => once_move run step, ?_⟩
  intro t s' step
  obtain ⟨regs, finished⟩ := finished_of_return run step
  refine ⟨finished.one, finished.once, regs, finished.completed, finished.flags, ?_⟩
  intro v u exec
  have later := exec.stable (I := Finished regs) (fun _ _ _ _ h step => h.step step)
    (finished.step step)
  have flags := finished.flags
  have flags' := later.flags
  refine ⟨?_, later.once, flags', flags'.1.trans flags.1.symm, flags'.2.trans flags.2.symm⟩
  simpa using later.one

theorem x86CheckFeatures_once_contended :
    ∃ (w v : List (Bool × Act)) (busy s s' : Threads Bool),
      (x86CheckFeatures Bool).Run w busy ∧ (false, .enterInit) ∈ w ∧ (true, .call) ∈ w ∧
      busy.shared.onceControl = 2 ∧ busy.pc true = .switchToThread ∧
      (x86CheckFeatures Bool).Exec busy v s ∧ (x86CheckFeatures Bool).step s (true, .ret) s' ∧
      enters (w ++ v) = 1 ∧ s.shared.onceControl = 1 ∧ s.shared.x86CpuEnableSsse3 = 0x200 ∧
      ∃ regs, Completed (w ++ v) regs ∧ FlagsOf regs s.shared := by
  have start : (x86CheckFeatures Bool).Run [] ⟨⟨0, 0, 0⟩, fun _ => .outside⟩ :=
    .nil ⟨rfl, fun _ => rfl⟩
  have first := (((start.snoc (a := (false, .call)) ⟨_, _, .call _, rfl⟩).snoc
    (a := (false, .internal)) ⟨_, _, .fastSlow _ (by decide), rfl⟩).snoc
    (a := (false, .internal)) ⟨_, _, .case0 _ rfl, rfl⟩).snoc
    (a := (false, .enterInit)) ⟨_, _, .enterInit _, rfl⟩
  have second := ((first.snoc (a := (true, .call)) ⟨_, _, .call _, rfl⟩).snoc
    (a := (true, .internal)) ⟨_, _, .fastSlow _ (by decide), rfl⟩).snoc
    (a := (true, .internal)) ⟨_, _, .default _ (by decide) (by decide), rfl⟩
  have stay {w : List (Bool × Act)} {b : Threads Bool} (_ : (x86CheckFeatures Bool).Run w b) :
      (x86CheckFeatures Bool).Exec b [] b := .nil b
  have read := (((((stay second).snoc
    (a := (false, .internal)) ⟨_, _, .cpuid _ ⟨0, 0, 0x200, 0⟩, rfl⟩).snoc
    (a := (false, .internal)) ⟨_, _, .hasSse2 _ _, rfl⟩).snoc
    (a := (false, .internal)) ⟨_, _, .hasSsse3 _ _ _, rfl⟩).snoc
    (a := (false, .internal)) ⟨_, _, .hasSse42 _ _ _ _, rfl⟩).snoc
    (a := (false, .internal)) ⟨_, _, .hasPclmulqdq _ _ _ _ _, rfl⟩
  have published := (((read.snoc
    (a := (false, .internal)) ⟨_, _, .storeSsse3 _ _ _ _ _ _, rfl⟩).snoc
    (a := (false, .internal)) ⟨_, _, .storeSimd _ _ _ _ _, rfl⟩).snoc
    (a := (false, .leaveInit ⟨0, 0, 0x200, 0⟩)) ⟨_, _, .leaveInit _ ⟨0, 0, 0x200, 0⟩, rfl⟩).snoc
    (a := (false, .internal)) ⟨_, _, .exchange _, rfl⟩
  have resumed := (published.snoc
    (a := (true, .internal)) ⟨_, _, .switchToThread _, rfl⟩).snoc
    (a := (true, .internal)) ⟨_, _, .case1 _ rfl, rfl⟩
  obtain ⟨-, -, final⟩ := x86CheckFeatures_once (second.trans resumed)
  obtain ⟨one, once, regs, completed, flags, -⟩ := final true _ ⟨_, _, .ret _, rfl⟩
  exact ⟨_, _, _, _, _, second, by decide, by decide, rfl, rfl, resumed, ⟨_, _, .ret _, rfl⟩, one,
    once, rfl, regs, completed, flags⟩

end PngDecode.Zlib
