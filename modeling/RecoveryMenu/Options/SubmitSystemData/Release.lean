import RecoveryMenu.Foundations.Lifetime
import RecoveryMenu.Options.SubmitSystemData.Submit

set_option relaxedAutoImplicit false
set_option autoImplicit false

/-!
# The resources of a submission (`ios_mcp/source/options/SubmitSystemData.c`)

A run acquires the data buffer, an AES key object and a TCP socket, and cleans up by hand in
each of its early returns. Two of them forget the socket: the one for a server name that cannot
be looked up, and the one for a request that cannot be sent whole.

## Main definitions

* `RecoveryMenu.SubmitSystemData.Resource`, `RecoveryMenu.SubmitSystemData.ops`: what a run
  acquires, uses and releases.
* `RecoveryMenu.SubmitSystemData.LeavesSocket`: the runs that end in one of the two returns.

## Main results

* `RecoveryMenu.SubmitSystemData.leaves_optionSubmitSystemData`: what is held in the end.
* `RecoveryMenu.SubmitSystemData.submit_releasesAll_iff`: when a run releases what it takes.

## References

* `ios_mcp/source/options/SubmitSystemData.c`, lines 198-508.
-/

namespace RecoveryMenu

namespace SubmitSystemData

open ByteMemory DumpOtpAndSeeprom Lifetime Menu RegionInfo

/-! ## Resources -/

/-- What a run acquires. -/
inductive Resource
  | heap
  | aes
  | socket
  deriving DecidableEq, Repr

/-- The operations on resources in an event. -/
@[simp] def opsOf : Event Call → List (Op Resource)
  | .call (.heapAlloc ok) => if ok then [.acquire .heap] else []
  | .call (.access _ _ _) => [.use .heap]
  | .call (.accessString _ _ _) => [.use .heap]
  | .call .heapFree => [.release .heap]
  | .call (.createObject res) => if res = 0 then [.acquire .aes] else []
  | .call (.importSecretKey _) => [.use .aes]
  | .call (.encrypt _ _) => [.use .aes]
  | .call .deleteObject => [.release .aes]
  | .call (.socket res) => if 0 ≤ res then [.acquire .socket] else []
  | .call (.connect _) => [.use .socket]
  | .call (.send _ _) => [.use .socket]
  | .call (.recv _) => [.use .socket]
  | .call .closesocket => [.release .socket]
  | _ => []

/-- The operations on resources in a run. -/
def ops (events : List (Event Call)) : List (Op Resource) := events.flatMap opsOf

/-- The phases of the three resources. -/
@[simp] def phases (heap aes socket : Phase) : Resource → Phase
  | .heap => heap
  | .aes => aes
  | .socket => socket

/-- The phases after a change of one. -/
lemma update_phases (heap aes socket p : Phase) (x : Resource) :
    Function.update (phases heap aes socket) x p =
      phases (if x = .heap then p else heap) (if x = .aes then p else aes)
        (if x = .socket then p else socket) := by
  funext y
  cases x
  all_goals cases y
  all_goals rfl

/-- The phases after an operation. -/
@[simp] lemma step_phases (heap aes socket : Phase) (op : Op Resource) :
    step (phases heap aes socket) op =
      ((phases heap aes socket op.resource).after op).map fun p =>
        phases (if op.resource = .heap then p else heap) (if op.resource = .aes then p else aes)
          (if op.resource = .socket then p else socket) := by
  rw [step]
  congr 1
  funext p
  exact update_phases heap aes socket p op.resource

/-- Without events there are no operations. -/
@[simp] lemma ops_nil : ops [] = [] := rfl

/-- The operations of an event and then the rest. -/
@[simp] lemma ops_cons (e : Event Call) (l : List (Event Call)) : ops (e :: l) = opsOf e ++ ops l :=
  List.flatMap_cons

/-- The operations of one part of a run and then the next. -/
@[simp] lemma ops_append (a b : List (Event Call)) : ops (a ++ b) = ops a ++ ops b :=
  List.flatMap_append

/-- Some events do nothing with the resources but use the buffer. -/
def UsesHeap (events : List (Event Call)) : Prop := ∀ e ∈ events, ∀ op ∈ opsOf e, op = .use .heap

/-- One part of a run and then the next. -/
lemma UsesHeap.append {a b : List (Event Call)} (ha : UsesHeap a) (hb : UsesHeap b) :
    UsesHeap (a ++ b) := by
  intro e he
  rcases List.mem_append.mp he with he | he
  · exact ha e he
  · exact hb e he

/-- Events that only use the buffer change nothing while it is held. -/
lemma UsesHeap.run_ops {events : List (Event Call)} (h : UsesHeap events) (aes socket : Phase) :
    run (phases .held aes socket) (ops events) = some (phases .held aes socket) := by
  refine run_uses fun op hop => ⟨.heap, ?_, rfl⟩
  obtain ⟨e, he, hop⟩ := List.mem_flatMap.mp hop
  exact h e he op hop

/-! ## What a part of a run leaves -/

/-- The events are allowed from the given phases on, and of the three resources at most the
socket is held in the end, which it is exactly if `P`. -/
def Leaves (s : Resource → Phase) (events : List (Event Call)) (P : Prop) : Prop :=
  ∃ t, run s (ops events) = some t ∧ ∀ x, t x = .held ↔ x = .socket ∧ P

/-- A part that leads to known phases. -/
lemma leaves_of_run (heap aes socket : Phase) {s : Resource → Phase} {events : List (Event Call)}
    {P : Prop} (h : run s (ops events) = some (phases heap aes socket)) (hheap : heap ≠ .held)
    (haes : aes ≠ .held) (hsocket : socket = .held ↔ P) : Leaves s events P := by
  refine ⟨phases heap aes socket, h, fun x => ?_⟩
  cases x with
  | heap => simpa using hheap
  | aes => simpa using haes
  | socket => simpa using hsocket

/-- A part that releases everything. -/
lemma leaves_nothing (heap aes socket : Phase) {s : Resource → Phase} {events : List (Event Call)}
    {P : Prop} (h : run s (ops events) = some (phases heap aes socket))
    (hfree : heap ≠ .held ∧ aes ≠ .held ∧ socket ≠ .held) (hP : ¬ P) : Leaves s events P :=
  leaves_of_run heap aes socket h hfree.1 hfree.2.1 (iff_of_false hfree.2.2 hP)

/-- One part of a run and then the next. -/
lemma Leaves.append {s t : Resource → Phase} {a b : List (Event Call)} {P : Prop}
    (h : Leaves t b P) (ha : run s (ops a) = some t) : Leaves s (a ++ b) P := by
  obtain ⟨t', hrun, hheld⟩ := h
  exact ⟨t', by rw [ops_append, run_append, ha, Option.bind_some, hrun], hheld⟩

/-! ## The stages -/

/-- The end of a run releases the socket and the buffer. -/
lemma run_submitFinish (ok : Bool) :
    run (phases .held .released .held) (ops (submitFinish ok)) =
      some (phases .released .released .released) := by
  cases ok
  all_goals simp [submitFinish]

/-- What is shown of a response. -/
lemma run_submitShow (parsed : Parsed) :
    run (phases .held .released .held) (ops (submitShow parsed)) =
      some (phases .released .released .released) := by
  simp only [submitShow]
  split
  · split_ifs
    · split
      all_goals simp [run_submitFinish]
    · simp [run_submitFinish]
  · simp [run_submitFinish]

/-- The response. -/
lemma run_submitResponse (recvs : ℕ → RecvResult) (buf : Frame) :
    run (phases .held .released .held) (ops (submitResponse recvs buf)) =
      some (phases .released .released .released) := by
  simp only [submitResponse]
  split
  · simp [run_submitFinish]
  · simp [run_submitShow]

/-- The request: a part that is not sent whole ends the run with the socket open. -/
lemma leaves_submitSend (r : Results) (buf : Frame) :
    Leaves (phases .held .released .held) (submitSend r buf) (¬ SendsAll r) := by
  have hfailed (h : ¬ SendsAll r) : Leaves (phases .held .released .held)
      [.call .heapFree, .printError "Failed to send HTTP request." []] (¬ SendsAll r) :=
    leaves_of_run .released .released .held (by simp) (by decide) (by decide) (iff_of_true rfl h)
  simp only [submitSend]
  refine Leaves.append ?_ (t := phases .held .released .held) (by simp)
  split_ifs with hrequest hkey hdata
  · exact hfailed fun h => hrequest h.1
  · exact (hfailed fun h => hkey h.2.1).append (by simp)
  · refine Leaves.append ?_ (t := phases .held .released .held) (by simp)
    exact (hfailed fun h => hdata h.2.2).append (by simp)
  · refine Leaves.append ?_ (t := phases .held .released .held) (by simp)
    refine Leaves.append ?_ (t := phases .held .released .held) (by simp)
    have hall : SendsAll r := ⟨not_not.mp hrequest, not_not.mp hkey, not_not.mp hdata⟩
    exact leaves_nothing .released .released .released (run_submitResponse r.recvs buf) (by decide)
      (not_not.mpr hall)

/-- The server is not found, or it is, and the request is not sent whole. -/
def LeavesConnection (r : Results) : Prop := r.hostAddr = none ∨ 0 ≤ r.connect ∧ ¬ SendsAll r

/-- The connection: a server name that cannot be looked up ends the run with the socket open. -/
lemma leaves_submitConnect (r : Results) (buf : Frame) :
    Leaves (phases .held .released .fresh) (submitConnect r buf)
      (r.initNetconf = 0 ∧ 0 ≤ r.socket ∧ LeavesConnection r) := by
  simp only [submitConnect]
  refine Leaves.append ?_ (t := phases .held .released .fresh) (by simp)
  split_ifs with hnetconf hsocket hhost hconnect
  · exact leaves_nothing .released .released .fresh (by simp) (by decide) (fun h => hnetconf h.1)
  · exact leaves_nothing .released .released .fresh (by simp [not_le.mpr hsocket]) (by decide)
      (fun h => absurd h.2.1 (not_le.mpr hsocket))
  all_goals
    refine Leaves.append ?_ (t := phases .held .released .held) (by simp [not_lt.mp hsocket])
    refine Leaves.append ?_ (t := phases .held .released .held) (by simp)
  · exact leaves_of_run .released .released .held (by simp) (by decide) (by decide)
      (iff_of_true rfl ⟨not_not.mp hnetconf, not_lt.mp hsocket, Or.inl hhost⟩)
  · refine leaves_nothing .released .released .released (by simp) (by decide) ?_
    rintro ⟨-, -, hnone | ⟨hle, -⟩⟩
    · exact hhost hnone
    · exact absurd hle (not_le.mpr hconnect)
  · obtain ⟨t, hrun, hheld⟩ := leaves_submitSend r buf
    have hleaves : r.initNetconf = 0 ∧ 0 ≤ r.socket ∧ LeavesConnection r ↔ ¬ SendsAll r := by
      simp only [LeavesConnection, not_not.mp hnetconf, not_lt.mp hsocket, hhost,
        not_lt.mp hconnect, true_and, false_or]
    refine Leaves.append ?_ (t := phases .held .released .held) (by simp)
    rw [hleaves]
    exact ⟨t, hrun, hheld⟩

/-- The encryption. -/
lemma leaves_submitEncrypt (r : Results) (buf : Frame) (pdh : PostDataHashed) :
    Leaves (phases .held .fresh .fresh) (submitEncrypt r buf pdh)
      (EncryptsRecord r ∧ r.initNetconf = 0 ∧ 0 ≤ r.socket ∧ LeavesConnection r) := by
  simp only [submitEncrypt]
  split_ifs with hrand hkey hobject himport hencrypt
  · exact leaves_nothing .released .fresh .fresh (by simp) (by decide) (fun h => hrand h.1.1)
  all_goals refine Leaves.append ?_ (t := phases .held .fresh .fresh) (by simp)
  · exact leaves_nothing .released .fresh .fresh (by simp) (by decide) (fun h => hkey h.1.2.1)
  · exact leaves_nothing .released .fresh .fresh (by simp [hobject]) (by decide)
      (fun h => hobject h.1.2.2.1)
  all_goals
    refine Leaves.append ?_ (t := phases .held .held .fresh) (by simp [not_not.mp hobject])
    refine Leaves.append ?_ (t := phases .held .held .fresh) (by simp)
  · exact leaves_nothing .released .released .fresh (by simp) (by decide)
      (fun h => himport h.1.2.2.2.1)
  all_goals refine Leaves.append ?_ (t := phases .held .held .fresh) (by simp)
  · exact leaves_nothing .released .released .fresh (by simp) (by decide)
      (fun h => hencrypt h.1.2.2.2.2)
  · have hall : EncryptsRecord r := ⟨not_not.mp hrand, not_not.mp hkey, not_not.mp hobject,
      not_not.mp himport, not_not.mp hencrypt⟩
    refine Leaves.append ?_ (t := phases .held .released .fresh) (by simp)
    rw [and_iff_right hall]
    exact leaves_submitConnect r _

/-- The hashes use the buffer only. -/
lemma leaves_submitHash (r : Results) (buf : Frame) (pd : PostData) :
    Leaves (phases .held .fresh .fresh) (submitHash r buf pd).events
      (EncryptsRecord r ∧ r.initNetconf = 0 ∧ 0 ≤ r.socket ∧ LeavesConnection r) := by
  have hotp (pd : PostData) : UsesHeap (hashOtp r buf pd).2 := by
    simp only [hashOtp]
    split_ifs
    all_goals simp [UsesHeap]
  have hpost (pd : PostData) : UsesHeap (hashPostData r buf pd).2.2 := by
    simp only [hashPostData]
    split_ifs
    all_goals simp [UsesHeap]
  simp only [submitHash]
  exact (leaves_submitEncrypt r _ _).append (((hotp pd).append (hpost _)).run_ops _ _)

/-- Filling the record uses the buffer only. -/
lemma usesHeap_fillAccesses (r : Results) (buf : Frame) : UsesHeap (fillAccesses r buf) := by
  have hcopies : UsesHeap (fieldCopies.flatMap fun copy =>
      [.call (.access copy.1 copy.2.1 copy.2.2.2),
        .call (.access .pdh copy.2.2.1 copy.2.2.2)]) := by
    intro e he
    obtain ⟨copy, -, he⟩ := List.mem_flatMap.mp he
    have hcopy : UsesHeap [.call (.access copy.1 copy.2.1 copy.2.2.2),
        .call (.access .pdh copy.2.2.1 copy.2.2.2)] := by simp [UsesHeap]
    exact hcopy e he
  simp only [fillAccesses]
  split
  all_goals exact (hcopies.append (by simp [UsesHeap])).append (by simp [UsesHeap])

/-- The record, and everything after it. -/
lemma leaves_submitCollect (r : Results) (buf : Frame) :
    Leaves (phases .held .fresh .fresh) (submitCollect r buf).events
      (CollectsRecord r ∧ EncryptsRecord r ∧ r.initNetconf = 0 ∧ 0 ≤ r.socket ∧
        LeavesConnection r) := by
  have hstopped {events : List (Event Call)} (huses : UsesHeap events) (text : String)
      (args : List Arg) (h : ¬ CollectsRecord r) :
      Leaves (phases .held .fresh .fresh)
        (events ++ [.print text args, .call .heapFree, .waitButtonInput])
        (CollectsRecord r ∧ EncryptsRecord r ∧ r.initNetconf = 0 ∧ 0 ≤ r.socket ∧
          LeavesConnection r) := by
    refine Leaves.append ?_ (huses.run_ops _ _)
    exact leaves_nothing .released .fresh .fresh (by simp) (by decide) (fun hleaves => h hleaves.1)
  have hstarted : UsesHeap [.call (.access .pdh 0 0x240), .call (.access .otp 0x380 0x40),
      .call (.access .pdh 0x0C0 0x180)] := by simp [UsesHeap]
  have hversioned := hstarted.append (b := [.call (.access .pdh 0x03C 4)]) (by simp [UsesHeap])
  have hfilled (buf : Frame) := hversioned.append (usesHeap_fillAccesses r buf)
  simp only [submitCollect]
  split_ifs with hcert hversion
  · exact hstopped hstarted _ _ fun h => hcert h.1
  · exact hstopped hversioned _ _ fun h => hversion h.2.1
  · split
    · next hmlc => exact hstopped (hfilled _) _ _ fun h => h.2.2 hmlc
    · next mlc hmlc =>
      have hall : CollectsRecord r :=
        ⟨not_not.mp hcert, not_not.mp hversion, by rw [hmlc]; exact Option.some_ne_none mlc⟩
      rw [and_iff_right hall]
      exact (leaves_submitHash r _ _).append
        (((hfilled _).append (by simp [UsesHeap])).run_ops _ _)

/-- A run that ends in one of the two returns that forget the socket. -/
def LeavesSocket (r : Results) : Prop :=
  FillsRecord r ∧ CollectsRecord r ∧ EncryptsRecord r ∧ r.initNetconf = 0 ∧ 0 ≤ r.socket ∧
    LeavesConnection r

/-- **What a run leaves.** Every run acquires, uses and releases its resources as it should, but
for the socket that some runs leave. -/
theorem leaves_optionSubmitSystemData (r : Results) :
    Leaves (phases .fresh .fresh .fresh) (optionSubmitSystemData r).events (LeavesSocket r) := by
  by_cases h : FillsRecord r
  · have halloc : r.heapAlloc = true := h.2.1
    rw [optionSubmitSystemData_eq h, LeavesSocket, and_iff_right h]
    exact (leaves_submitCollect r (readBuffer r)).append (by simp [beforeRecord, halloc])
  · have hleaves : ¬ LeavesSocket r := fun hleaves => h hleaves.1
    have hread : UsesHeap (readOtpSeeprom r.readOTP r.otp r.bspRead r.heap).events := by
      simp only [readOtpSeeprom]
      split_ifs
      all_goals simp [UsesHeap]
    simp only [optionSubmitSystemData]
    by_cases hselected : r.selected = 0
    · rw [if_pos hselected]
      exact leaves_nothing .fresh .fresh .fresh (by simp [stop]) (by decide) hleaves
    by_cases halloc : r.heapAlloc = true
    · have hres : (readOtpSeeprom r.readOTP r.otp r.bspRead r.heap : ReadOutcome Call).res ≠ 0 :=
        fun hres => h ⟨hselected, halloc, readOtpSeeprom_res_eq_zero_iff.mp hres⟩
      rw [if_neg hselected, if_neg (not_not.mpr halloc), if_pos hres]
      simp only [stop, List.append_assoc]
      refine Leaves.append ?_ (t := phases .fresh .fresh .fresh) (by simp)
      refine Leaves.append ?_ (t := phases .held .fresh .fresh) (by simp [halloc])
      refine Leaves.append ?_ (t := phases .held .fresh .fresh) (by simp)
      refine Leaves.append ?_ (t := phases .held .fresh .fresh) ?_
      · refine Leaves.append ?_ (hread.run_ops _ _)
        exact leaves_nothing .released .fresh .fresh (by simp) (by decide) hleaves
      · split_ifs
        all_goals simp
    · rw [if_neg hselected, if_pos halloc]
      exact leaves_nothing .fresh .fresh .fresh (by simp [stop, halloc]) (by decide) hleaves

/-- Before a run nothing has been acquired. -/
lemma phases_fresh : phases .fresh .fresh .fresh = fun _ => .fresh := by
  funext x
  cases x
  all_goals rfl

/-- **When a run releases what it takes.** For all results of the calls of a run: the buffer, the
key object and the socket are each released once if they are acquired, and not used after, iff
the run does not end for a server name that cannot be looked up, or for a request that cannot be
sent whole, after the socket was opened.

**Proof sketch.** The ledger of every stage (`leaves_optionSubmitSystemData`). -/
theorem submit_releasesAll_iff (r : Results) :
    ReleasesAll (ops (optionSubmitSystemData r).events) ↔ ¬ LeavesSocket r := by
  obtain ⟨t, hrun, hheld⟩ := leaves_optionSubmitSystemData r
  rw [phases_fresh] at hrun
  rw [releasesAll_iff hrun]
  simp only [ne_eq, hheld]
  constructor
  · exact fun h hleaves => h .socket ⟨rfl, hleaves⟩
  · exact fun h x hx => h hx.2

/-- A server name that cannot be looked up: the socket stays open. -/
theorem not_submit_releasesAll :
    ¬ ∀ r : Results, ReleasesAll (ops (optionSubmitSystemData r).events) := by
  intro h
  obtain ⟨t, hrun, hheld⟩ := leaves_optionSubmitSystemData { sent with hostAddr := none }
  rw [phases_fresh] at hrun
  have hleaves : LeavesSocket { sent with hostAddr := none } :=
    ⟨⟨by decide, rfl, le_refl 0, fun _ _ => le_refl 0⟩, ⟨rfl, rfl, by decide⟩,
      ⟨rfl, rfl, rfl, rfl, rfl⟩, rfl, by decide, Or.inl rfl⟩
  exact (releasesAll_iff hrun).mp (h _) .socket ((hheld .socket).mpr ⟨rfl, hleaves⟩)

end SubmitSystemData

end RecoveryMenu
