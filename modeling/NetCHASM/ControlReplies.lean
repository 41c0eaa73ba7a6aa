import NetCHASM.Control

/-! Which commands return, with replies that have the lengths of their buffers. A command fails
through a number that is too large, a status that is no number, a hash that does not fit, a host
without results, a group without a name, or files and records whose reading throws. -/
namespace NetCHASM

open KeyOrder OrderedMap Decimal HMDataPacking ConfigChange

namespace Handled

/-- The command returned, and each of its replies has the length of its buffer. -/
def Good (h : Handled) : Prop := h.exit = .returned ∧ ∀ reply ∈ h.replies, reply.Sized

variable {s : ControlState}

@[simp] theorem good_send_iff {reply : Reply} : Good (send s reply) ↔ reply.Sized := by
  simp [Good, send]

@[simp] theorem good_silent : Good (silent s) := by
  simp [Good, silent]

theorem not_good_threw : ¬ Good ⟨.threw, [], s⟩ := fun h => Exit.noConfusion h.1

theorem not_good_overran : ¬ Good ⟨.overran, [], s⟩ := fun h => Exit.noConfusion h.1

end Handled

namespace Reply

@[simp] theorem sized_nothing : nothing.Sized := rfl

theorem not_sized_unset : ¬ unset.Sized := fun h => Option.noConfusion rfl (heq_of_eq h)

@[simp] theorem sized_pack (r : ControlRun) (m : Message) : (r.pack m).Sized := rfl

@[simp] theorem sized_packSome (r : ControlRun) (m : Option Message) : (r.packSome m).Sized := by
  cases m <;> rfl

end Reply

/-- A word that starts with a number, in the base of its prefix, beyond an unsigned long. -/
def TooLarge (number : HMString) : Prop :=
  (unsigned number).head?.any isDigit = true ∧ 2 ^ 64 ≤ prefixedValue (unsigned number)

instance (number : HMString) : Decidable (TooLarge number) := inferInstanceAs (Decidable (_ ∧ _))

/-- A word that starts with a number in the range of an int. -/
def IsInt (status : HMString) : Prop :=
  (unsigned status).head?.any isDigit = true ∧
    -2 ^ 31 ≤ signedValue (status.dropWhile isSpace) ∧
    signedValue (status.dropWhile isSpace) < 2 ^ 31

instance (status : HMString) : Decidable (IsInt status) := inferInstanceAs (Decidable (_ ∧ _))

theorem stoul_eq_outOfRange_iff {number : HMString} :
    stoul number = .error .outOfRange ↔ TooLarge number := by
  rw [stoul, TooLarge]
  split
  next hno => simp_all
  next hdigit =>
    split
    next hlarge => exact iff_of_true rfl ⟨by simpa using hdigit, hlarge⟩
    next hsmall => exact iff_of_false (by simp) fun h => hsmall h.2

theorem stoi_eq_ok_iff {status : HMString} : (∃ v, stoi status = .ok v) ↔ IsInt status := by
  simp only [stoi, IsInt]
  split
  next hno => simp_all
  next hdigit =>
    split
    next hrange =>
      simp only [Bool.or_eq_true, decide_eq_true_eq] at hrange
      simp only [reduceCtorEq, exists_false, false_iff, not_and]
      omega
    next hrange =>
      simp only [Bool.or_eq_true, decide_eq_true_eq] at hrange
      simp only [Except.ok.injEq, exists_eq', true_iff]
      exact ⟨by simpa using hdigit, by omega, by omega⟩

namespace Handled

variable {s : ControlState} {args : List HMString} {number : HMString}

theorem good_strtoul_iff {next : UInt32 → Handled} : Good (strtoul s number next) ↔
    ¬ TooLarge number ∧ ∀ n, stoul number = .ok n → Good (next (.ofNat n)) := by
  rw [← stoul_eq_outOfRange_iff, strtoul]
  cases stoul number with
  | ok n => simp
  | error e =>
    cases e with
    | invalidArgument => simp
    | outOfRange => simp [not_good_threw]

theorem good_arg1_iff {next : HMString → Handled} :
    Good (arg1 s args next) ↔ ∀ a, args[0]? = some a → Good (next a) := by
  rcases args with _ | ⟨a, _⟩ <;> simp [arg1]

theorem good_arg2_iff {next : HMString → HMString → Handled} {P : HMString → Prop}
    (h : ∀ a b, Good (next a b) ↔ P b) :
    Good (arg2 s args next) ↔ ∀ b, args[1]? = some b → P b := by
  rcases args with _ | ⟨a, _ | ⟨b, _⟩⟩ <;> simp [arg2, h]

theorem good_arg3_iff {next : HMString → HMString → HMString → Handled} {P : HMString → Prop}
    (h : ∀ a b c, Good (next a b c) ↔ P c) :
    Good (arg3 s args next) ↔ ∀ c, args[2]? = some c → P c := by
  rcases args with _ | ⟨a, _ | ⟨b, _ | ⟨c, _⟩⟩⟩ <;> simp [arg3, h]

end Handled

namespace ControlRun

open Handled

variable (r : ControlRun) (s : ControlState)

/-- The hash in the payload, if there is one, fits its array and is not longer than its bytes with
their terminator. -/
def HashFits (size : HMString) : Prop :=
  ∀ n data pair, stoul size = .ok n → r.receiveMessage (.ofNat n) = some data →
    r.parseHash data = some pair →
    copyCount pair ≤ hashMaxSize ∧ copyCount pair ≤ pair.hash.length + 1

/-- The hash in the payload. -/
def payloadHash (size : HMString) : Option StoredHash :=
  match stoul size with
  | .ok n => (r.receiveMessage (.ofNat n)).bind fun data => (r.parseHash data).bind copied
  | .error _ => none

/-- The group that the words ask for, with the hash it is to have. -/
def asked (args : List HMString) : Option (HMString × Option StoredHash) :=
  match args with
  | name :: size :: _ => (r.payloadHash size).map fun hash => (name, some hash)
  | [name] => some (name, none)
  | [] => none

/-- What the words of a command that looks at the records of a group have to meet. -/
def GroupMeets {ρ : Type} (records : HMString → Fetch (List ρ)) (args : List HMString) : Prop :=
  (∀ size, args[1]? = some size → ¬ TooLarge size ∧ r.HashFits size) ∧
    ∀ q ∈ r.asked args, (verifiedGroup s q.1 q.2).isSome → records q.1 ≠ .raised

/-- The group is there, and the backend has a result of the host. -/
def HasResults (hostGroup host : HMString) : Prop :=
  (s.getHostGroupInfo hostGroup).isSome ∧
    ∃ records, r.getGroupCheckResults false hostGroup = .found records ∧ ∃ e ∈ records, e.1 = host

/-- What the words of a command have to meet. -/
def Meets (args : List HMString) : HMCommandTask → Prop
  | .reload => r.reload args.head? ≠ none
  | .refresh => r.refresh ≠ none
  | .hostGroupInfo => r.GroupMeets s (r.getGroupCheckResults true) args
  | .loadfbInfo => r.GroupMeets s r.getGroupAuxInfo args
  | .setHostStatus => ∀ status, args[2]? = some status → IsInt status
  | .hostCheck =>
    ∀ hostGroup host, args[0]? = some hostGroup → args[1]? = some host →
      r.HasResults s hostGroup host
  | .hostResults | .loadfbInfoHost | .addHostGroup | .addDNSAddresses | .removeDNSAddresses =>
    ∀ size, args[1]? = some size → ¬ TooLarge size
  | .hostIPResults => ∀ size, args[2]? = some size → ¬ TooLarge size
  | .setMonFreq | .setStride | .setWorkPerThread | .setTTLTresh =>
    ∀ number, args[0]? = some number → ¬ TooLarge number
  | .commitTransaction =>
    ∀ size, args[0]? = some size → (¬ TooLarge size ∧ r.HashFits size) ∧
      ∀ hash ∈ r.payloadHash size, r.commitThrows s hash.bytes = false
  | .setHostMark | .removeHostMark =>
    ∀ address size, args[2]? = some address → args[3]? = some size →
      r.parseAddress address ≠ none → ¬ TooLarge size
  | _ => True

/-- What a command has to meet, once its version is the one that is spoken. -/
def Served (command : HMString) : Prop :=
  match tokenize command with
  | [] => True
  | version :: words =>
    ¬ TooLarge version ∧
      (stoul version = .ok controlSocketVersion → ∀ name, words[0]? = some name →
        r.Meets s words.tail (convert name))

variable {r s} {args : List HMString} {size : HMString}

theorem good_receive {α : Type} {size : UInt32} {unpack : List UInt8 → Option α}
    {unread unparsed : Handled} {next : α → Handled} (hunread : unread.Good)
    (hunparsed : unparsed.Good) : (r.receive size unpack unread unparsed next).Good ↔
      ∀ data, r.receiveMessage size = some data → ∀ a, unpack data = some a → (next a).Good := by
  rw [receive]
  cases hdata : r.receiveMessage size with
  | none => simp [hunread]
  | some data =>
    cases hunpack : unpack data with
    | none => simp [hunparsed, hunpack]
    | some a => simp [hunpack]

/-- A payload that is unpacked is always answered. -/
theorem good_withPayload {α : Type} {unpack : List UInt8 → Option α} {next : α → Handled}
    (hnext : ∀ a, (next a).Good) : (r.withPayload s size unpack next).Good ↔ ¬ TooLarge size := by
  rw [withPayload, good_strtoul_iff]
  refine and_iff_left fun n _ => (good_receive ?_ ?_).mpr fun _ _ a _ => hnext a
  · exact good_send_iff.mpr Reply.sized_nothing
  · exact good_silent

theorem mem_payloadHash {hash : StoredHash} : hash ∈ r.payloadHash size ↔
    ∃ n data pair, stoul size = .ok n ∧ r.receiveMessage (.ofNat n) = some data ∧
      r.parseHash data = some pair ∧ copied pair = some hash := by
  rw [payloadHash]
  cases stoul size with
  | ok n => simp [Option.bind_eq_some_iff]
  | error e => simp

theorem good_withHash {failed : Reply} {next : StoredHash → Handled} (hfailed : failed.Sized) :
    (r.withHash s size failed next).Good ↔ (¬ TooLarge size ∧ r.HashFits size) ∧
      ∀ hash ∈ r.payloadHash size, (next hash).Good := by
  have hsent : (send s failed).Good := good_send_iff.mpr hfailed
  rw [withHash, good_strtoul_iff, and_assoc]
  refine and_congr_right fun _ => ?_
  constructor
  · intro h
    constructor
    · intro n data pair hn hdata hpair
      have hgood := (good_receive hsent hsent).mp (h n hn) data hdata pair hpair
      by_contra hfits
      rw [copied, dif_neg hfits] at hgood
      exact not_good_overran hgood
    · intro hash hhash
      obtain ⟨n, data, pair, hn, hdata, hpair, hcopied⟩ := mem_payloadHash.mp hhash
      have hgood := (good_receive hsent hsent).mp (h n hn) data hdata pair hpair
      rwa [hcopied] at hgood
  · rintro ⟨hfits, hnext⟩ n hn
    refine (good_receive hsent hsent).mpr fun data hdata pair hpair => ?_
    cases hcopied : copied pair with
    | none =>
      rw [copied, dif_pos (hfits n data pair hn hdata hpair)] at hcopied
      cases hcopied
    | some hash => exact hnext hash (mem_payloadHash.mpr ⟨n, data, pair, hn, hdata, hpair, hcopied⟩)

theorem good_withGroup {answer : HMString → Option StoredHash → Handled} :
    (r.withGroup s args answer).Good ↔
      (∀ size, args[1]? = some size → ¬ TooLarge size ∧ r.HashFits size) ∧
        ∀ q ∈ r.asked args, (answer q.1 q.2).Good := by
  rcases args with _ | ⟨name, _ | ⟨size, _⟩⟩
  · simp [withGroup, asked]
  · simp [withGroup, asked]
  · simp [withGroup, asked, good_withHash Reply.sized_nothing]

theorem good_withRecords {ρ : Type} {records : HMString → Fetch (List ρ)}
    {message : HMDataHostGroup → List ρ → Message} {name : HMString} {hash : Option StoredHash} :
    (r.withRecords s records message name hash).Good ↔
      ((verifiedGroup s name hash).isSome → records name ≠ .raised) := by
  rw [withRecords]
  cases verifiedGroup s name hash with
  | none => simp
  | some g =>
    cases records name with
    | found results => simp
    | missing => simp
    | raised => simp [not_good_threw]

theorem good_setTunable {t : Tunable} : (setTunable s t args).Good ↔
    ∀ number, args[0]? = some number → ¬ TooLarge number := by
  simp [setTunable, good_arg1_iff, good_strtoul_iff]

theorem good_changeHostMark
    {change : HMString → HMString → HMIPAddress → List Int → Bool × ControlState} :
    (r.changeHostMark s args change).Good ↔
      ∀ address size, args[2]? = some address → args[3]? = some size →
        r.parseAddress address ≠ none → ¬ TooLarge size := by
  rcases args with _ | ⟨group, _ | ⟨host, _ | ⟨address, _ | ⟨size, _⟩⟩⟩⟩
  · simp [changeHostMark, arg4]
  · simp [changeHostMark, arg4]
  · simp [changeHostMark, arg4]
  · simp [changeHostMark, arg4]
  · cases haddress : r.parseAddress address with
    | none => simp [changeHostMark, arg4, haddress]
    | some ip => simp [changeHostMark, arg4, haddress, good_withPayload, packBool]

/-- The status that is sent is a success exactly when the states were swapped. -/
theorem commitStatus_eq_success_iff {hash : TransactionHashes.HMHash} :
    r.commitStatus s hash = .success ↔
      (ConfigChange.Change.apply r.md5 r.commit s.system (.commit hash)).1 = true := by
  simp only [commitStatus, TransactionHashes.commitDaemonConfigs, ConfigChange.Change.apply,
    ConfigChange.ChangeRun.commitDaemonConfigs, ControlState.manager]
  cases TransactionHashes.hashConfigs r.md5 r.commit.hashesConfigs
      s.system.newTransactionState.config with
  | none => simp [ConfigChange.System.finish]
  | some newState =>
    cases hhash : TransactionHashes.hashEq hash newState.hash with
    | false => simp [hhash, ConfigChange.System.finish]
    | true =>
      simp only [hhash, Bool.not_true, Bool.false_eq_true, if_false]
      rw [ConfigChange.BackendRun.openBackend]
      rcases r.commit.backend.openStore _ _ with ⟨_ | _, backend⟩
      · simp [ConfigChange.System.finish]
      · simp [ConfigChange.System.finish]

theorem getHostCheck_eq_found_iff {hostGroup host : HMString} :
    (∃ results, r.getHostCheck s hostGroup host = .found results) ↔
      r.HasResults s hostGroup host := by
  rw [getHostCheck, HasResults]
  cases s.getHostGroupInfo hostGroup with
  | none => simp
  | some g =>
    cases r.getGroupCheckResults false hostGroup with
    | found records =>
      have hnone : (records.filter fun e => e.1 = host).isEmpty = true ↔
          ¬ ∃ e ∈ records, e.1 = host := by
        rw [List.isEmpty_iff, List.filter_eq_nil_iff]
        simp only [decide_eq_true_eq, not_exists, not_and]
      have hsome : (∃ records', Fetch.found records = .found records' ∧
          ∃ e ∈ records', e.1 = host) ↔ ∃ e ∈ records, e.1 = host := by simp
      rw [hsome]
      by_cases hhost : ∃ e ∈ records, e.1 = host
      · refine iff_of_true ?_ ⟨rfl, hhost⟩
        simp only [mt hnone.mp (not_not.mpr hhost)]
        exact ⟨_, rfl⟩
      · refine iff_of_false ?_ fun h => hhost h.2
        simp [hnone.mpr hhost]
    | missing => simp
    | raised => simp

/-- Without results the length that is sent was never assigned. -/
theorem good_sendHostCheck_iff {hostGroup host : HMString} :
    (r.sendHostCheck s hostGroup host).Good ↔ r.HasResults s hostGroup host := by
  rw [← getHostCheck_eq_found_iff, sendHostCheck]
  cases r.getHostCheck s hostGroup host with
  | found results => simp
  | missing => simp [Reply.not_sized_unset]
  | raised => simp [not_good_threw]

theorem good_commitDaemonConfigs_iff {hash : StoredHash} :
    (r.commitDaemonConfigs s hash).Good ↔ r.commitThrows s hash.bytes = false := by
  rw [commitDaemonConfigs]
  cases r.commitThrows s hash.bytes with
  | false => simp [packUInt]
  | true => simp [not_good_threw]

/-- A command is carried out well exactly when its words meet what it asks of them. -/
theorem good_handleTask_iff (task : HMCommandTask) :
    (r.handleTask s args task).Good ↔ r.Meets s args task := by
  cases task with
  | reload =>
    rw [handleTask, reloadDaemonConfigs, Meets]
    cases r.reload args.head? with
    | none => simp [not_good_threw]
    | some run => simp [packBool]
  | refresh =>
    rw [handleTask, refreshDaemonConfigs, Meets]
    cases r.refresh with
    | none => simp [not_good_threw]
    | some run => simp [packBool]
  | hostGroupInfo | loadfbInfo =>
    exact good_withGroup.trans (and_congr_right fun _ => forall₂_congr fun _ _ => good_withRecords)
  | setHostStatus =>
    refine good_arg3_iff fun hostGroup host status => ?_
    rw [← stoi_eq_ok_iff]
    cases stoi status with
    | error e => simp [not_good_threw]
    | ok hoststatus => simp
  | hostCheck =>
    rcases args with _ | ⟨hostGroup, _ | ⟨host, _⟩⟩
    · simp [handleTask, Meets, arg2]
    · simp [handleTask, Meets, arg2]
    · simp [handleTask, Meets, arg2, good_sendHostCheck_iff]
  | hostResults | loadfbInfoHost | addHostGroup | addDNSAddresses | removeDNSAddresses =>
    refine good_arg2_iff fun host size => good_withPayload fun a => ?_
    exact good_send_iff.mpr (Reply.sized_pack r _)
  | hostIPResults =>
    refine good_arg3_iff fun host address size => good_withPayload fun check => ?_
    rw [good_send_iff]
    cases r.parseAddress address with
    | none => exact Reply.sized_nothing
    | some ip => exact Reply.sized_pack r _
  | setMonFreq | setStride | setWorkPerThread | setTTLTresh => exact good_setTunable
  | commitTransaction =>
    refine good_arg1_iff.trans (forall₂_congr fun size hsize => (good_withHash ?_).trans
      (and_congr_right fun _ => forall₂_congr fun hash _ => good_commitDaemonConfigs_iff))
    exact Reply.sized_pack r _
  | setHostMark | removeHostMark => exact good_changeHostMark
  -- the other commands ask nothing of their words
  | hostList | hostGroupParams | remoteSchdInfo | removeHostGroup | getDNSAddresses =>
    refine iff_of_true (good_arg1_iff.mpr fun a _ => good_send_iff.mpr ?_) trivial
    first | exact Reply.sized_packSome r _ | exact Reply.sized_pack r _
  | setConnectionTimeout | healthCheck | dnsCheck | remoteHostGroupCheck | setRecycle
  | setRemoteQuery => exact iff_of_true (good_arg1_iff.mpr fun a _ => good_silent) trivial
  | hostSchdInfo =>
    refine iff_of_true ((good_arg2_iff fun a b => ?_).mpr fun b _ => trivial) trivial
    exact iff_of_true (good_send_iff.mpr (Reply.sized_packSome r _)) trivial
  | loadfbInfoIP | getHostMark =>
    refine iff_of_true ((good_arg3_iff fun a b address => ?_).mpr fun c _ => trivial) trivial
    refine iff_of_true (good_send_iff.mpr ?_) trivial
    cases r.parseAddress address with
    | none => exact Reply.sized_nothing
    | some ip => exact Reply.sized_packSome r _
  | setLogLevel | undefined => exact iff_of_true good_silent trivial
  | _ => exact iff_of_true (good_send_iff.mpr (Reply.sized_pack r _)) trivial

/-- A command returns, and its replies have the lengths of their buffers, exactly when it meets
what it is served for. -/
theorem command_returns_with_sized_replies_iff (r : ControlRun) (s : ControlState)
    (command : HMString) : (r.handleCommands s command).Good ↔ r.Served s command := by
  rw [handleCommands, Served]
  cases tokenize command with
  | nil => exact iff_of_true good_silent trivial
  | cons version words =>
    simp only [← stoul_eq_outOfRange_iff]
    cases stoul version with
    | error e =>
      cases e with
      | outOfRange => simp [not_good_threw]
      | invalidArgument => simp
    | ok v =>
      by_cases hv : v = controlSocketVersion
      · simp [hv, good_arg1_iff, good_handleTask_iff]
      · simp [hv]

/-- A daemon without groups. -/
def idleDaemon : ControlState where
  system := idleSystem
  connectionTimeout := 0
  transactionTimeout := 0
  tunables _ := 0
  switches _ := false
  hostMark := ∅

/-- A client that sends no payload. -/
def withoutPayload : ControlRun where
  receiveMessage _ := none
  serialize _ := []
  parseHash _ := none
  parseDataHostCheck _ := none
  parseDataHostGroup _ _ := none
  parseIPAddresses _ := none
  parseListInt64 _ := none
  parseAddress _ := none
  md5 _ := Vector.replicate 16 0
  initMD5 := true
  reload _ := none
  refresh := none
  commit := withoutPublishers
  namesHandle := true
  idleThreads := 0
  nThreads := 0
  handlerThreads := 0
  logLevel := 0
  getGroupCheckResults _ _ := .missing
  getGroupAuxInfo _ := .missing
  getAuxInfo _ _ _ := none
  getCheckResultsRemoteChecks _ _ _ := []

/-- A status that is no number is not caught, and a host check of a group that is not configured
sends a length that was never assigned. -/
theorem handler_throws_and_sends_unassigned_length :
    ¬ (withoutPayload.handleCommands idleDaemon (bytes "1 hostset web host down")).Good ∧
      ¬ (withoutPayload.handleCommands idleDaemon (bytes "1 hostcheck web host")).Good := by
  have hversion : stoul (bytes "1") = .ok controlSocketVersion := by decide
  constructor
  · intro h
    have hwords : tokenize (bytes "1 hostset web host down") =
        [bytes "1", bytes "hostset", bytes "web", bytes "host", bytes "down"] := by decide
    have htask : convert (bytes "hostset") = .setHostStatus := by decide
    have hstatus : stoi (bytes "down") = .error .invalidArgument := by decide
    rw [handleCommands, hwords] at h
    simp [hversion, arg1, htask, handleTask, arg3, hstatus, not_good_threw] at h
  · intro h
    have hwords : tokenize (bytes "1 hostcheck web host") =
        [bytes "1", bytes "hostcheck", bytes "web", bytes "host"] := by decide
    have htask : convert (bytes "hostcheck") = .hostCheck := by decide
    have hmissing : idleDaemon.getHostGroupInfo (bytes "web") = none := by decide
    rw [handleCommands, hwords] at h
    simp [hversion, arg1, htask, handleTask, arg2, sendHostCheck, getHostCheck, hmissing,
      Reply.not_sized_unset] at h

end ControlRun

end NetCHASM
