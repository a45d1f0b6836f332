import Katela.Net.Arp

/-! # The table of addresses as a map with expiry

The calls of `net/arp.c` on its table, with a history of what happened to each address
at the true time, of which the calls only see the low 32 bits. -/

namespace Katela.Net

/-! ## What the functions choose -/

/-- An entry for the address is in use. -/
def Held (table : ArpTable) (ip : Ipv4Addr) : Prop :=
  ∃ index, (table index).used = true ∧ (table index).ip = ip

instance (table : ArpTable) (ip : Ipv4Addr) : Decidable (Held table ip) :=
  inferInstanceAs (Decidable (∃ index, (table index).used = true ∧ (table index).ip = ip))

/-- At most one entry for an address is in use. -/
def Unique (table : ArpTable) : Prop :=
  ∀ first second, (table first).used = true → (table second).used = true →
    (table first).ip = (table second).ip → first = second

section Entries

variable {table : ArpTable} {stops : ArpEntry → Bool} {index : Fin arpTableSize}
variable {ip : Ipv4Addr} {now : UInt32}

theorem findEntry_stops (found : findEntry table stops = some index) :
    stops (table index) = true := by
  have stopped := List.find?_some found
  exact stopped

theorem findEntry_none (nothing : findEntry table stops = none)
    (index : Fin arpTableSize) : stops (table index) = false := by
  have passed := List.find?_eq_none.mp nothing index (List.mem_finRange index)
  exact Bool.eq_false_iff.mpr passed

/-- The entry that the loops over an address find. -/
theorem findEntry_ip (found : (findEntry table fun entry =>
    entry.used ∧ entry.ip = ip) = some index) :
    (table index).used = true ∧ (table index).ip = ip := by
  have stopped := findEntry_stops found
  rw [decide_eq_true_eq] at stopped
  exact stopped

theorem findEntry_ip_none (nothing : (findEntry table fun entry =>
    entry.used ∧ entry.ip = ip) = none) : ¬ Held table ip := by
  rintro ⟨index, isHeld⟩
  have passed := findEntry_none nothing index
  rw [decide_eq_false_iff_not] at passed
  exact passed isHeld

/-- The loop that looks for the oldest entry holds on to one that is at least as old as
those it has seen. -/
theorem olderEntry_foldl (indices : List (Fin arpTableSize)) :
    ∀ oldest : Fin arpTableSize, ∃ found,
      indices.foldl (olderEntry table now)
          (some (oldest, now - (table oldest).updated)) =
        some (found, now - (table found).updated) ∧
      now - (table oldest).updated ≤ now - (table found).updated ∧
      ∀ other ∈ indices, now - (table other).updated ≤ now - (table found).updated := by
  induction indices with
  | nil =>
      intro oldest
      exact ⟨oldest, rfl, UInt32.le_refl _, fun _ impossible => by cases impossible⟩
  | cons index indices ih =>
      intro oldest
      by_cases isOlder : now - (table index).updated > now - (table oldest).updated
      · rcases ih index with ⟨found, isFold, isOldest, all⟩
        refine ⟨found, ?_, ?_, ?_⟩
        · simp only [List.foldl_cons, olderEntry, if_pos isOlder]
          exact isFold
        · exact UInt32.le_trans (UInt32.le_of_lt isOlder) isOldest
        · intro other member
          rcases List.mem_cons.mp member with isIndex | inRest
          · rw [isIndex]
            exact isOldest
          · exact all other inRest
      · rcases ih oldest with ⟨found, isFold, isOldest, all⟩
        refine ⟨found, ?_, isOldest, ?_⟩
        · simp only [List.foldl_cons, olderEntry, if_neg isOlder]
          exact isFold
        · intro other member
          rcases List.mem_cons.mp member with isIndex | inRest
          · rw [isIndex]
            exact UInt32.le_trans (UInt32.not_lt.mp isOlder) isOldest
          · exact all other inRest

theorem oldestEntry_eq (table : ArpTable) (now : UInt32) :
    ∃ index, oldestEntry table now = some index ∧
      ∀ other, now - (table other).updated ≤ now - (table index).updated := by
  let start : Fin arpTableSize := ⟨0, by decide⟩
  have isRange : List.finRange arpTableSize =
      start :: (List.finRange arpTableSize).tail := by decide
  rcases @olderEntry_foldl table now (List.finRange arpTableSize).tail start with
    ⟨found, isFold, isOldest, all⟩
  refine ⟨found, ?_, ?_⟩
  · unfold oldestEntry
    rw [isRange, List.foldl_cons]
    simp only [olderEntry]
    rw [isFold]
    rfl
  · intro other
    have member : other ∈ start :: (List.finRange arpTableSize).tail := by
      rw [← isRange]
      exact List.mem_finRange other
    rcases List.mem_cons.mp member with isStart | inRest
    · rw [isStart]
      exact isOldest
    · exact all other inRest

/-- The entry that an update is written to: the one for the address, else one that is
not in use, else an oldest one. -/
theorem arpTableUpdate_cases (table : ArpTable) (ip : Ipv4Addr) (mac : MacAddr)
    (now : UInt32) :
    ∃ index, arpTableUpdate table ip mac now =
        Function.update table index ⟨ip, mac, now, true⟩ ∧
      (((table index).used = true ∧ (table index).ip = ip) ∨
        (¬ Held table ip ∧ (table index).used = false) ∨
        (¬ Held table ip ∧ (∀ other, (table other).used = true) ∧
          ∀ other, now - (table other).updated ≤ now - (table index).updated)) := by
  unfold arpTableUpdate updateTarget
  cases isHeld : findEntry table fun entry => entry.used ∧ entry.ip = ip with
  | some index => exact ⟨index, rfl, Or.inl (findEntry_ip isHeld)⟩
  | none =>
      have notHeld := findEntry_ip_none isHeld
      cases isFree : findEntry table fun entry => !entry.used with
      | some index =>
          have free := findEntry_stops isFree
          exact ⟨index, rfl, Or.inr (Or.inl ⟨notHeld, by simpa using free⟩)⟩
      | none =>
          rcases oldestEntry_eq table now with ⟨index, isIndex, all⟩
          refine ⟨index, ?_, Or.inr (Or.inr ⟨notHeld, ?_, all⟩)⟩
          · simp only [isIndex]
          · intro other
            have passed := findEntry_none isFree other
            simpa using passed

/-- What a lookup finds, and what it does to the table. -/
theorem arpTableLookup_cases (table : ArpTable) (ip : Ipv4Addr) (now : UInt32) :
    (¬ Held table ip ∧ (arpTableLookup table ip now).1 = none ∧
        (arpTableLookup table ip now).2 = table) ∨
      ∃ index, (table index).used = true ∧ (table index).ip = ip ∧
        ((now - (table index).updated ≥ arpEntryLifetime ∧
            (arpTableLookup table ip now).1 = none ∧
            (arpTableLookup table ip now).2 =
              Function.update table index { table index with used := false }) ∨
          (¬ now - (table index).updated ≥ arpEntryLifetime ∧
            (arpTableLookup table ip now).1 = some (table index).mac ∧
            (arpTableLookup table ip now).2 = table)) := by
  unfold arpTableLookup
  cases isHeld : findEntry table fun entry => entry.used ∧ entry.ip = ip with
  | none => exact Or.inl ⟨findEntry_ip_none isHeld, rfl, rfl⟩
  | some index =>
      have isEntry := findEntry_ip isHeld
      refine Or.inr ⟨index, isEntry.1, isEntry.2, ?_⟩
      by_cases old : now - (table index).updated ≥ arpEntryLifetime
      · simp only [if_pos old]
        exact Or.inl ⟨old, trivial, trivial⟩
      · simp only [if_neg old]
        exact Or.inr ⟨old, trivial, trivial⟩

end Entries

/-! ## Runs -/

/-- What happened, with the address that it happened to. -/
inductive ArpEvent where
  | stored (ip : Ipv4Addr) (mac : MacAddr) (time : Nat)
  | removed (ip : Ipv4Addr)
  | evicted (ip : Ipv4Addr)
  | answered (ip : Ipv4Addr) (mac : MacAddr) (time : Nat)
  deriving DecidableEq

/-- The latest update of an address that was neither removed nor evicted since. The
history has the latest event first. -/
def latest : List ArpEvent → Ipv4Addr → Option (MacAddr × Nat)
  | [], _ => none
  | .stored other mac time :: events, ip =>
      if other = ip then some (mac, time) else latest events ip
  | .removed other :: events, ip => if other = ip then none else latest events ip
  | .evicted other :: events, ip => if other = ip then none else latest events ip
  | .answered _ _ _ :: events, ip => latest events ip

structure ArpRun where
  table : ArpTable
  history : List ArpEvent
  clock : Nat

inductive ArpCall where
  | update (ip : Ipv4Addr) (mac : MacAddr)
  | lookup (ip : Ipv4Addr)
  | remove (ip : Ipv4Addr)
  | expire
  | handle (packet : ArpPacket)

/-- The addresses that had an entry before and have none after. -/
def lostBetween (before after : ArpTable) : List Ipv4Addr :=
  (List.finRange arpTableSize).filterMap fun index =>
    if (before index).used = true ∧ ¬ Held after (before index).ip then
      some (before index).ip
    else none

namespace ArpRun

def start (time : Nat) : ArpRun := ⟨arpTableInit, [], time⟩

def update (run : ArpRun) (time : Nat) (ip : Ipv4Addr) (mac : MacAddr) : ArpRun :=
  let table := arpTableUpdate run.table ip mac (UInt32.ofNat time)
  { table
    history := .stored ip mac time ::
      ((lostBetween run.table table).map .evicted ++ run.history)
    clock := time }

/-- The answer of a call at a time. -/
def answer (run : ArpRun) (time : Nat) (ip : Ipv4Addr) : Option MacAddr :=
  (arpTableLookup run.table ip (UInt32.ofNat time)).1

def lookup (run : ArpRun) (time : Nat) (ip : Ipv4Addr) : ArpRun :=
  { table := (arpTableLookup run.table ip (UInt32.ofNat time)).2
    history :=
      match run.answer time ip with
      | none => run.history
      | some mac => .answered ip mac time :: run.history
    clock := time }

def remove (run : ArpRun) (time : Nat) (ip : Ipv4Addr) : ArpRun :=
  { table := arpTableRemove run.table ip
    history := .removed ip :: run.history
    clock := time }

def expire (run : ArpRun) (time : Nat) : ArpRun :=
  { run with table := arpTableExpire run.table (UInt32.ofNat time), clock := time }

/-- The calls that `arp_handle` makes. -/
def handle (run : ArpRun) (time : Nat) (ownIp : Ipv4Addr) (packet : ArpPacket) :
    ArpRun :=
  if senderIsValid packet ownIp then
    if packet.targetIp = ownIp then run.update time packet.senderIp packet.senderMac
    else if (run.answer time packet.senderIp).isSome then
      (run.lookup time packet.senderIp).update time packet.senderIp packet.senderMac
    else run.lookup time packet.senderIp
  else { run with clock := time }

/-- The table is the one that `arp_handle` leaves. -/
theorem handle_table (run : ArpRun) (time : Nat) (ownMac : MacAddr) (ownIp : Ipv4Addr)
    (packet : ArpPacket) :
    (run.handle time ownIp packet).table =
      (arpHandle run.table packet ownMac ownIp (UInt32.ofNat time)).2 := by
  have reply : ∀ (condition : Prop) [Decidable condition] (answer : ArpPacket)
      (table : ArpTable),
      (if condition then (some answer, table) else (none, table)).2 = table := by
    intro condition _ answer table
    by_cases holds : condition
    · rw [if_pos holds]
    · rw [if_neg holds]
  unfold handle arpHandle
  dsimp only
  rw [reply]
  by_cases valid : senderIsValid packet ownIp = true
  · rw [if_pos valid, if_pos valid]
    by_cases forUs : packet.targetIp = ownIp
    · rw [if_pos forUs, if_pos forUs]
      rfl
    · rw [if_neg forUs, if_neg forUs]
      unfold answer lookup
      cases found : arpTableLookup run.table packet.senderIp (UInt32.ofNat time) with
      | mk answer table =>
          cases answer with
          | none =>
              simp only [answer, found, Option.isSome_none]
              rfl
          | some mac =>
              simp only [Option.isSome_some, if_true]
              rfl
  · rw [if_neg valid, if_neg valid]

def call (run : ArpRun) (ownIp : Ipv4Addr) (time : Nat) : ArpCall → ArpRun
  | .update ip mac => run.update time ip mac
  | .lookup ip => run.lookup time ip
  | .remove ip => run.remove time ip
  | .expire => run.expire time
  | .handle packet => run.handle time ownIp packet

end ArpRun

/-- The states that are reached from an empty table by calls of a kind, at times that
do not decrease. -/
inductive ArpReached (ownIp : Ipv4Addr) (start : Nat)
    (allowed : ArpRun → Nat → ArpCall → Prop) : ArpRun → Prop where
  | init : ArpReached ownIp start allowed (ArpRun.start start)
  | call {run : ArpRun} (before : ArpReached ownIp start allowed run) (time : Nat)
      (call : ArpCall) (later : run.clock ≤ time) (isAllowed : allowed run time call) :
      ArpReached ownIp start allowed (run.call ownIp time call)

/-! ## Calls that only take entries out of use -/

theorem lookup_shrinks (run : ArpRun) (time : Nat) (ip : Ipv4Addr)
    (index : Fin arpTableSize) (isUsed : ((run.lookup time ip).table index).used = true) :
    (run.lookup time ip).table index = run.table index := by
  have isTable : (run.lookup time ip).table =
      (arpTableLookup run.table ip (UInt32.ofNat time)).2 := rfl
  rw [isTable] at isUsed ⊢
  rcases arpTableLookup_cases run.table ip (UInt32.ofNat time) with
    ⟨_, _, same⟩ | ⟨found, _, _, ⟨_, _, same⟩ | ⟨_, _, same⟩⟩
  · rw [same]
  · rw [same] at isUsed ⊢
    by_cases isFound : index = found
    · rw [isFound, Function.update_self] at isUsed
      cases isUsed
    · exact Function.update_of_ne isFound _ _
  · rw [same]

theorem remove_shrinks (run : ArpRun) (time : Nat) (ip : Ipv4Addr)
    (index : Fin arpTableSize) (isUsed : ((run.remove time ip).table index).used = true) :
    (run.remove time ip).table index = run.table index := by
  have isEntry : (run.remove time ip).table index =
      if (run.table index).used = true ∧ (run.table index).ip = ip then
        { run.table index with used := false }
      else run.table index := rfl
  rw [isEntry] at isUsed ⊢
  split at isUsed
  · cases isUsed
  · next isKept => exact if_neg isKept

theorem expire_shrinks (run : ArpRun) (time : Nat) (index : Fin arpTableSize)
    (isUsed : ((run.expire time).table index).used = true) :
    (run.expire time).table index = run.table index := by
  have isEntry : (run.expire time).table index =
      if (run.table index).used = true ∧
          UInt32.ofNat time - (run.table index).updated ≥ arpEntryLifetime then
        { run.table index with used := false }
      else run.table index := rfl
  rw [isEntry] at isUsed ⊢
  split at isUsed
  · cases isUsed
  · next isKept => exact if_neg isKept

/-! ## What a run keeps -/

/-- The age that the code computes is the true one without its high bits. -/
theorem toNat_age {time updated : Nat} (later : updated ≤ time) :
    (UInt32.ofNat time - UInt32.ofNat updated).toNat = (time - updated) % 2 ^ 32 := by
  rw [UInt32.toNat_sub, UInt32.toNat_ofNat', UInt32.toNat_ofNat']
  omega

/-- An entry that the code takes for expired has expired. -/
theorem expired_of_age {time updated : Nat} (later : updated ≤ time)
    (old : UInt32.ofNat time - UInt32.ofNat updated ≥ arpEntryLifetime) :
    updated + 60000 ≤ time := by
  have isOld : arpEntryLifetime.toNat ≤ (UInt32.ofNat time - UInt32.ofNat updated).toNat :=
    UInt32.le_iff_toNat_le.mp old
  have isLifetime : arpEntryLifetime.toNat = 60000 := rfl
  rw [toNat_age later, isLifetime] at isOld
  have most := Nat.mod_le (time - updated) (2 ^ 32)
  omega

theorem mem_lostBetween {before after : ArpTable} {ip : Ipv4Addr} :
    ip ∈ lostBetween before after ↔ Held before ip ∧ ¬ Held after ip := by
  unfold lostBetween
  rw [List.mem_filterMap]
  constructor
  · rintro ⟨index, _, isLost⟩
    split at isLost
    · next lost =>
        cases isLost
        exact ⟨⟨index, lost.1, rfl⟩, lost.2⟩
    · cases isLost
  · rintro ⟨⟨index, isUsed, isIp⟩, notHeld⟩
    refine ⟨index, List.mem_finRange index, ?_⟩
    rw [if_pos ⟨isUsed, by rw [isIp]; exact notHeld⟩, isIp]

theorem latest_evicted (lost : List Ipv4Addr) (events : List ArpEvent) (ip : Ipv4Addr) :
    latest (lost.map .evicted ++ events) ip =
      if ip ∈ lost then none else latest events ip := by
  induction lost with
  | nil => rfl
  | cons other lost ih =>
      simp only [List.map_cons, List.cons_append, latest, List.mem_cons, ih]
      by_cases isOther : other = ip
      · rw [if_pos isOther, if_pos (Or.inl isOther.symm)]
      · rw [if_neg isOther]
        by_cases isLost : ip ∈ lost
        · rw [if_pos isLost, if_pos (Or.inr isLost)]
        · rw [if_neg isLost, if_neg (by
            rintro (isIp | inLost)
            · exact isOther isIp.symm
            · exact isLost inLost)]

/-- What the table and the history have to do with each other. -/
structure Tracks (start : Nat) (run : ArpRun) : Prop where
  unique : Unique run.table
  timed : ∀ index, (run.table index).used = true → ∃ time,
    latest run.history (run.table index).ip = some ((run.table index).mac, time) ∧
      (run.table index).updated = UInt32.ofNat time
  past : ∀ ip mac time, latest run.history ip = some (mac, time) →
    start ≤ time ∧ time ≤ run.clock
  kept : ∀ ip mac time, latest run.history ip = some (mac, time) →
    ¬ Held run.table ip → time + 60000 ≤ run.clock
  started : start ≤ run.clock

theorem start_tracks (time : Nat) : Tracks time (ArpRun.start time) where
  unique := fun _ _ isUsed => absurd isUsed (by simp [ArpRun.start, arpTableInit])
  timed := fun _ isUsed => absurd isUsed (by simp [ArpRun.start, arpTableInit])
  past := fun _ _ _ impossible => by cases impossible
  kept := fun _ _ _ impossible => by cases impossible
  started := Nat.le_refl time

section Steps

variable {start time : Nat} {run : ArpRun}

/-- A call that only takes entries out of use. -/
theorem Tracks.shrink (tracks : Tracks start run) {table : ArpTable}
    {history : List ArpEvent} (later : run.clock ≤ time)
    (shrinks : ∀ index, (table index).used = true → table index = run.table index)
    (older : ∀ ip mac updated, latest history ip = some (mac, updated) →
      latest run.history ip = some (mac, updated))
    (same : ∀ index, (table index).used = true →
      latest history (table index).ip = latest run.history (table index).ip)
    (expired : ∀ index, (run.table index).used = true →
      ¬ Held table (run.table index).ip →
      latest history (run.table index).ip = none ∨
        UInt32.ofNat time - (run.table index).updated ≥ arpEntryLifetime) :
    Tracks start ⟨table, history, time⟩ where
  unique := by
    intro first second isFirst isSecond sameIp
    change (table first).used = true at isFirst
    change (table second).used = true at isSecond
    have firstSame := shrinks first isFirst
    have secondSame := shrinks second isSecond
    rw [firstSame] at isFirst
    rw [secondSame] at isSecond
    apply tracks.unique first second isFirst isSecond
    rw [← firstSame, ← secondSame]
    exact sameIp
  timed := by
    intro index isUsed
    change (table index).used = true at isUsed
    have isSame := shrinks index isUsed
    change ∃ time, latest history (table index).ip = some ((table index).mac, time) ∧
      (table index).updated = UInt32.ofNat time
    rw [same index isUsed, isSame]
    rw [isSame] at isUsed
    exact tracks.timed index isUsed
  past := by
    intro ip mac updated isLatest
    have isPast := tracks.past ip mac updated (older ip mac updated isLatest)
    exact ⟨isPast.1, Nat.le_trans isPast.2 later⟩
  kept := by
    intro ip mac updated isLatest notHeld
    change latest history ip = some (mac, updated) at isLatest
    have wasLatest := older ip mac updated isLatest
    change updated + 60000 ≤ time
    by_cases wasHeld : Held run.table ip
    · rcases wasHeld with ⟨index, isUsed, isIp⟩
      rcases tracks.timed index isUsed with ⟨recorded, isRecorded, isUpdated⟩
      rw [isIp, wasLatest, Option.some.injEq, Prod.mk.injEq] at isRecorded
      rcases expired index isUsed (by rw [isIp]; exact notHeld) with isNone | old
      · rw [isIp, isLatest] at isNone
        cases isNone
      · rw [isUpdated, ← isRecorded.2] at old
        have isPast := tracks.past ip mac updated wasLatest
        exact expired_of_age (Nat.le_trans isPast.2 later) old
    · have wasKept := tracks.kept ip mac updated wasLatest wasHeld
      omega
  started := Nat.le_trans tracks.started later

theorem Tracks.wait (tracks : Tracks start run) (later : run.clock ≤ time) :
    Tracks start { run with clock := time } :=
  tracks.shrink later (fun _ _ => rfl) (fun _ _ _ isLatest => isLatest)
    (fun _ _ => rfl)
    (fun index isUsed notHeld => absurd ⟨index, isUsed, rfl⟩ notHeld)

theorem latest_lookup (run : ArpRun) (time : Nat) (other ip : Ipv4Addr) :
    latest (run.lookup time other).history ip = latest run.history ip := by
  unfold ArpRun.lookup
  dsimp only
  cases run.answer time other with
  | none => rfl
  | some mac => rfl

theorem Tracks.lookup (tracks : Tracks start run) (later : run.clock ≤ time)
    (ip : Ipv4Addr) : Tracks start (run.lookup time ip) := by
  have sameHistory := latest_lookup run time ip
  refine tracks.shrink later (lookup_shrinks run time ip) ?_ (fun _ _ => sameHistory _) ?_
  · intro other mac updated isLatest
    rw [← sameHistory other]
    exact isLatest
  · rcases arpTableLookup_cases run.table ip (UInt32.ofNat time) with
      ⟨_, _, isTable⟩ | ⟨found, _, _, ⟨old, _, isTable⟩ | ⟨_, _, isTable⟩⟩
    · rw [isTable]
      exact fun index isUsed notHeld => absurd ⟨index, isUsed, rfl⟩ notHeld
    · rw [isTable]
      intro index isUsed notHeld
      by_cases isFound : index = found
      · rw [isFound]
        exact Or.inr old
      · refine absurd ⟨index, ?_, ?_⟩ notHeld
        · rw [Function.update_of_ne isFound]
          exact isUsed
        · rw [Function.update_of_ne isFound]
    · rw [isTable]
      exact fun index isUsed notHeld => absurd ⟨index, isUsed, rfl⟩ notHeld

theorem Tracks.remove (tracks : Tracks start run) (later : run.clock ≤ time)
    (ip : Ipv4Addr) : Tracks start (run.remove time ip) := by
  refine tracks.shrink later (remove_shrinks run time ip) ?_ ?_ ?_
  · intro other mac updated isLatest
    simp only [latest] at isLatest
    split at isLatest
    · cases isLatest
    · exact isLatest
  · intro index isUsed
    have isKept := remove_shrinks run time ip index isUsed
    have notIp : ip ≠ (arpTableRemove run.table ip index).ip := by
      intro isIp
      change (run.remove time ip).table index = run.table index at isKept
      change ((run.remove time ip).table index).used = true at isUsed
      change ip = ((run.remove time ip).table index).ip at isIp
      rw [isKept] at isUsed isIp
      have isRemoved : (run.remove time ip).table index =
          { run.table index with used := false } := if_pos ⟨isUsed, isIp.symm⟩
      rw [isRemoved] at isKept
      rw [← isKept] at isUsed
      cases isUsed
    simp only [latest]
    exact if_neg notIp
  · intro index isUsed notHeld
    by_cases isIp : (run.table index).ip = ip
    · simp only [latest]
      exact Or.inl (if_pos isIp.symm)
    · refine absurd ⟨index, ?_, ?_⟩ notHeld
      · unfold arpTableRemove
        rw [if_neg fun isRemoved => isIp isRemoved.2]
        exact isUsed
      · unfold arpTableRemove
        rw [if_neg fun isRemoved => isIp isRemoved.2]

theorem Tracks.expire (tracks : Tracks start run) (later : run.clock ≤ time) :
    Tracks start (run.expire time) := by
  refine tracks.shrink later (expire_shrinks run time)
    (fun _ _ _ isLatest => isLatest) (fun _ _ => rfl) ?_
  · intro index isUsed notHeld
    by_cases old : UInt32.ofNat time - (run.table index).updated ≥ arpEntryLifetime
    · exact Or.inr old
    · have isYoung : ¬ ((run.table index).used = true ∧
          UInt32.ofNat time - (run.table index).updated ≥ arpEntryLifetime) :=
        fun isExpired => old isExpired.2
      refine absurd ⟨index, ?_, ?_⟩ notHeld
      · unfold arpTableExpire
        rw [if_neg isYoung]
        exact isUsed
      · unfold arpTableExpire
        rw [if_neg isYoung]

/-- After an update every entry but the one that was written to is as before, and none
of them is for the address. -/
theorem update_others {table : ArpTable} {ip : Ipv4Addr} {index other : Fin arpTableSize}
    {now : UInt32} (unique : Unique table)
    (isTarget : ((table index).used = true ∧ (table index).ip = ip) ∨
      (¬ Held table ip ∧ (table index).used = false) ∨
      (¬ Held table ip ∧ (∀ other, (table other).used = true) ∧
        ∀ other, now - (table other).updated ≤ now - (table index).updated))
    (different : other ≠ index) (isUsed : (table other).used = true) :
    (table other).ip ≠ ip := by
  intro isIp
  rcases isTarget with isHeld | ⟨notHeld, _⟩ | ⟨notHeld, _⟩
  · exact different (unique other index isUsed isHeld.1 (isIp.trans isHeld.2.symm))
  · exact notHeld ⟨other, isUsed, isIp⟩
  · exact notHeld ⟨other, isUsed, isIp⟩

theorem latest_update (run : ArpRun) (time : Nat) (ip other : Ipv4Addr) (mac : MacAddr) :
    latest (run.update time ip mac).history other =
      if ip = other then some (mac, time)
      else if Held run.table other ∧ ¬ Held (run.update time ip mac).table other then none
      else latest run.history other := by
  unfold ArpRun.update
  simp only [latest, latest_evicted, mem_lostBetween]

theorem Tracks.update (tracks : Tracks start run) (later : run.clock ≤ time)
    (ip : Ipv4Addr) (mac : MacAddr) : Tracks start (run.update time ip mac) := by
  rcases arpTableUpdate_cases run.table ip mac (UInt32.ofNat time) with
    ⟨index, isUpdate, isTarget⟩
  have isTable : (run.update time ip mac).table =
      Function.update run.table index ⟨ip, mac, UInt32.ofNat time, true⟩ := isUpdate
  have isNew : (run.update time ip mac).table index =
      ⟨ip, mac, UInt32.ofNat time, true⟩ := by
    rw [isTable, Function.update_self]
  have isOther : ∀ other, other ≠ index →
      (run.update time ip mac).table other = run.table other := by
    intro other different
    rw [isTable, Function.update_of_ne different]
  have otherIp : ∀ other, other ≠ index → (run.table other).used = true →
      (run.table other).ip ≠ ip :=
    fun other different isUsed => update_others tracks.unique isTarget different isUsed
  have isHeld : Held (run.update time ip mac).table ip :=
    ⟨index, by rw [isNew], by rw [isNew]⟩
  constructor
  case unique =>
    intro first second isFirst isSecond sameIp
    by_cases firstNew : first = index
    · by_cases secondNew : second = index
      · rw [firstNew, secondNew]
      · rw [firstNew, isNew, isOther second secondNew] at sameIp
        rw [isOther second secondNew] at isSecond
        exact absurd sameIp.symm (otherIp second secondNew isSecond)
    · rw [isOther first firstNew] at isFirst sameIp
      by_cases secondNew : second = index
      · rw [secondNew, isNew] at sameIp
        exact absurd sameIp (otherIp first firstNew isFirst)
      · rw [isOther second secondNew] at isSecond sameIp
        exact tracks.unique first second isFirst isSecond sameIp
  case timed =>
    intro other isUsed
    by_cases isIndex : other = index
    · rw [isIndex, isNew]
      refine ⟨time, ?_, rfl⟩
      rw [latest_update, if_pos rfl]
    · have stillHeld : Held (run.update time ip mac).table (run.table other).ip :=
        ⟨other, isUsed, by rw [isOther other isIndex]⟩
      rw [isOther other isIndex] at isUsed ⊢
      rw [latest_update, if_neg (otherIp other isIndex isUsed).symm,
        if_neg fun isLost => isLost.2 stillHeld]
      exact tracks.timed other isUsed
  case past =>
    intro other otherMac updated isLatest
    rw [latest_update] at isLatest
    split at isLatest
    · cases isLatest
      exact ⟨Nat.le_trans tracks.started later, Nat.le_refl time⟩
    · split at isLatest
      · cases isLatest
      · have isPast := tracks.past other otherMac updated isLatest
        exact ⟨isPast.1, Nat.le_trans isPast.2 later⟩
  case kept =>
    intro other otherMac updated isLatest notHeld
    rw [latest_update] at isLatest
    split at isLatest
    · next isIp =>
        rw [← isIp] at notHeld
        exact absurd isHeld notHeld
    · split at isLatest
      · cases isLatest
      · next notLost =>
          have wasNotHeld : ¬ Held run.table other :=
            fun wasHeld => notLost ⟨wasHeld, notHeld⟩
          exact Nat.le_trans (tracks.kept other otherMac updated isLatest wasNotHeld)
            later
  case started => exact Nat.le_trans tracks.started later

theorem Tracks.handle (tracks : Tracks start run) (later : run.clock ≤ time)
    (ownIp : Ipv4Addr) (packet : ArpPacket) :
    Tracks start (run.handle time ownIp packet) := by
  unfold ArpRun.handle
  split
  · split
    · exact tracks.update later _ _
    · split
      · exact (tracks.lookup later _).update (Nat.le_refl time) _ _
      · exact tracks.lookup later _
  · exact tracks.wait later

theorem Tracks.call (tracks : Tracks start run) (later : run.clock ≤ time)
    (ownIp : Ipv4Addr) (call : ArpCall) : Tracks start (run.call ownIp time call) := by
  cases call with
  | update ip mac => exact tracks.update later ip mac
  | lookup ip => exact tracks.lookup later ip
  | remove ip => exact tracks.remove later ip
  | expire => exact tracks.expire later
  | handle packet => exact tracks.handle later ownIp packet

end Steps

theorem reached_tracks {ownIp : Ipv4Addr} {start : Nat}
    {allowed : ArpRun → Nat → ArpCall → Prop} {run : ArpRun}
    (reached : ArpReached ownIp start allowed run) : Tracks start run := by
  induction reached with
  | init => exact start_tracks start
  | call _ time call later _ tracks => exact tracks.call later ownIp call

/-! ## The map -/

section Answers

variable {start time : Nat} {run : ArpRun}

/-- A lookup that succeeds returns the latest update of the address. -/
theorem Tracks.answer_latest (tracks : Tracks start run) {ip : Ipv4Addr} {mac : MacAddr}
    (later : run.clock ≤ time) (isAnswer : run.answer time ip = some mac) :
    ∃ updated, latest run.history ip = some (mac, updated) ∧ updated ≤ time ∧
      (time - updated) % 2 ^ 32 < 60000 ∧ Held run.table ip := by
  unfold ArpRun.answer at isAnswer
  rcases arpTableLookup_cases run.table ip (UInt32.ofNat time) with
    ⟨_, isNone, _⟩ | ⟨index, isUsed, isIp, ⟨_, isNone, _⟩ | ⟨young, isSome, _⟩⟩
  · rw [isNone] at isAnswer
    cases isAnswer
  · rw [isNone] at isAnswer
    cases isAnswer
  · rcases tracks.timed index isUsed with ⟨updated, isLatest, isUpdated⟩
    rw [isSome, Option.some.injEq] at isAnswer
    rw [isIp, isAnswer] at isLatest
    have isPast := tracks.past ip mac updated isLatest
    have isAge := toNat_age (Nat.le_trans isPast.2 later)
    rw [isUpdated, ge_iff_le, UInt32.le_iff_toNat_le, isAge] at young
    refine ⟨updated, isLatest, Nat.le_trans isPast.2 later, ?_, ⟨index, isUsed, isIp⟩⟩
    exact Nat.lt_of_not_le young

/-- A lookup of an address that was updated a short time ago succeeds. -/
theorem Tracks.latest_answer (tracks : Tracks start run) {ip : Ipv4Addr} {mac : MacAddr}
    {updated : Nat} (later : run.clock ≤ time)
    (isLatest : latest run.history ip = some (mac, updated))
    (young : time - updated < 60000) : run.answer time ip = some mac := by
  have isPast := tracks.past ip mac updated isLatest
  have isAge := toNat_age (Nat.le_trans isPast.2 later)
  unfold ArpRun.answer
  rcases arpTableLookup_cases run.table ip (UInt32.ofNat time) with
    ⟨notHeld, _, _⟩ | ⟨index, isUsed, isIp, isCase⟩
  · have isKept := tracks.kept ip mac updated isLatest notHeld
    omega
  · rcases tracks.timed index isUsed with ⟨recorded, isRecorded, isUpdated⟩
    rw [isIp, isLatest, Option.some.injEq, Prod.mk.injEq] at isRecorded
    rw [← isRecorded.2] at isUpdated
    rcases isCase with ⟨old, _, _⟩ | ⟨_, isSome, _⟩
    · rw [isUpdated, ge_iff_le, UInt32.le_iff_toNat_le, isAge] at old
      have isLifetime : arpEntryLifetime.toNat = 60000 := rfl
      have most := Nat.mod_le (time - updated) (2 ^ 32)
      omega
    · rw [isSome, ← isRecorded.1]

end Answers

/-! ## Entries that are lost -/

/-- The address is one that an update for another address may throw out. -/
structure MakesRoom (run : ArpRun) (new ip : Ipv4Addr) : Prop where
  isNew : ¬ Held run.table new
  full : ∀ index, (run.table index).used = true
  oldest : ∀ other mac otherMac updated otherUpdated, Held run.table other →
    latest run.history ip = some (mac, updated) →
    latest run.history other = some (otherMac, otherUpdated) → updated ≤ otherUpdated

/-- The latest update of the address was a lifetime ago. -/
def Expired (run : ArpRun) (time : Nat) (ip : Ipv4Addr) : Prop :=
  ∃ mac updated, latest run.history ip = some (mac, updated) ∧ updated + 60000 ≤ time

namespace ArpCall

/-- The call may store something for the address. -/
def Updates : ArpCall → Ipv4Addr → Prop
  | .update ip _, new => ip = new
  | .handle packet, new => packet.senderIp = new
  | _, _ => False

/-- The call looks at the age of the entry for the address. -/
def Inspects : ArpCall → Ipv4Addr → Prop
  | .lookup ip, found => ip = found
  | .handle packet, found => packet.senderIp = found
  | .expire, _ => True
  | _, _ => False

end ArpCall

section Losses

variable {start time : Nat} {run : ArpRun} {ip : Ipv4Addr}

theorem Tracks.update_loses (tracks : Tracks start run) (later : run.clock ≤ time)
    (span : time < start + 2 ^ 32) {new : Ipv4Addr} {mac : MacAddr}
    (isHeld : Held run.table ip)
    (notHeld : ¬ Held (run.update time new mac).table ip) : MakesRoom run new ip := by
  rcases arpTableUpdate_cases run.table new mac (UInt32.ofNat time) with
    ⟨index, isUpdate, isTarget⟩
  have isTable : (run.update time new mac).table =
      Function.update run.table index ⟨new, mac, UInt32.ofNat time, true⟩ := isUpdate
  rcases isHeld with ⟨found, isUsed, isIp⟩
  -- Only the entry that was written to can be the lost one.
  have isFound : found = index := by
    by_contra different
    refine notHeld ⟨found, ?_, ?_⟩
    · rw [isTable, Function.update_of_ne different]
      exact isUsed
    · rw [isTable, Function.update_of_ne different]
      exact isIp
  subst isFound
  rcases isTarget with ⟨_, sameIp⟩ | ⟨_, notUsed⟩ | ⟨isNew, full, oldest⟩
  · refine absurd ⟨found, ?_, ?_⟩ notHeld
    · rw [isTable, Function.update_self]
    · rw [isTable, Function.update_self]
      exact sameIp.symm.trans isIp
  · rw [isUsed] at notUsed
    cases notUsed
  · refine ⟨isNew, full, ?_⟩
    intro other mac otherMac updated otherUpdated otherHeld isLatest otherLatest
    rcases otherHeld with ⟨position, otherUsed, otherIp⟩
    have isPast := tracks.past _ _ _ isLatest
    have otherPast := tracks.past _ _ _ otherLatest
    rcases tracks.timed found isUsed with ⟨recorded, isRecorded, isUpdated⟩
    rcases tracks.timed position otherUsed with ⟨otherTime, otherRecorded, otherIs⟩
    rw [isIp, isLatest, Option.some.injEq, Prod.mk.injEq] at isRecorded
    rw [otherIp, otherLatest, Option.some.injEq, Prod.mk.injEq] at otherRecorded
    have isOlder := UInt32.le_iff_toNat_le.mp (oldest position)
    rw [isUpdated, otherIs, ← isRecorded.2, ← otherRecorded.2,
      toNat_age (by omega), toNat_age (by omega)] at isOlder
    omega

theorem Tracks.lookup_loses (tracks : Tracks start run) (later : run.clock ≤ time)
    {found : Ipv4Addr} (isHeld : Held run.table ip)
    (notHeld : ¬ Held (run.lookup time found).table ip) :
    found = ip ∧ Expired run time ip := by
  rcases isHeld with ⟨index, isUsed, isIp⟩
  have isTable : (run.lookup time found).table =
      (arpTableLookup run.table found (UInt32.ofNat time)).2 := rfl
  rcases arpTableLookup_cases run.table found (UInt32.ofNat time) with
    ⟨_, _, same⟩ | ⟨position, positionUsed, isPosition, ⟨old, _, same⟩ | ⟨_, _, same⟩⟩
  · rw [isTable, same] at notHeld
    exact absurd ⟨index, isUsed, isIp⟩ notHeld
  · rw [isTable, same] at notHeld
    by_cases isFound : index = position
    · rw [← isFound] at isPosition old
      rcases tracks.timed index isUsed with ⟨updated, isLatest, isUpdated⟩
      rw [isIp] at isLatest
      rw [isUpdated] at old
      have isPast := tracks.past _ _ _ isLatest
      exact ⟨isPosition.symm.trans isIp, _, updated, isLatest,
        expired_of_age (Nat.le_trans isPast.2 later) old⟩
    · refine absurd ⟨index, ?_, ?_⟩ notHeld
      · rw [Function.update_of_ne isFound]
        exact isUsed
      · rw [Function.update_of_ne isFound]
        exact isIp
  · rw [isTable, same] at notHeld
    exact absurd ⟨index, isUsed, isIp⟩ notHeld

theorem lookup_of_answer {found : Ipv4Addr} {mac : MacAddr}
    (isAnswer : run.answer time found = some mac) :
    (run.lookup time found).table = run.table := by
  unfold ArpRun.answer at isAnswer
  rcases arpTableLookup_cases run.table found (UInt32.ofNat time) with
    ⟨_, _, same⟩ | ⟨_, _, _, ⟨_, isNone, _⟩ | ⟨_, _, same⟩⟩
  · exact same
  · rw [isNone] at isAnswer
    cases isAnswer
  · exact same

theorem Tracks.expire_loses (tracks : Tracks start run) (later : run.clock ≤ time)
    (isHeld : Held run.table ip) (notHeld : ¬ Held (run.expire time).table ip) :
    Expired run time ip := by
  rcases isHeld with ⟨index, isUsed, isIp⟩
  by_cases old : UInt32.ofNat time - (run.table index).updated ≥ arpEntryLifetime
  · rcases tracks.timed index isUsed with ⟨updated, isLatest, isUpdated⟩
    rw [isIp] at isLatest
    rw [isUpdated] at old
    have isPast := tracks.past _ _ _ isLatest
    exact ⟨_, updated, isLatest, expired_of_age (Nat.le_trans isPast.2 later) old⟩
  · have same : (run.expire time).table index = run.table index :=
      if_neg fun isExpired => old isExpired.2
    exact absurd ⟨index, by rw [same]; exact isUsed, by rw [same]; exact isIp⟩ notHeld

theorem remove_loses {removed : Ipv4Addr} (isHeld : Held run.table ip)
    (notHeld : ¬ Held (run.remove time removed).table ip) : removed = ip := by
  rcases isHeld with ⟨index, isUsed, isIp⟩
  by_contra different
  have same : (run.remove time removed).table index = run.table index :=
    if_neg fun isRemoved => different (isRemoved.2.symm.trans isIp)
  exact notHeld ⟨index, by rw [same]; exact isUsed, by rw [same]; exact isIp⟩

/-- An entry is lost by a removal, when it has expired, or because it is an oldest one
and a full table needs room for another address. -/
theorem Tracks.call_loses (tracks : Tracks start run) (later : run.clock ≤ time)
    (span : time < start + 2 ^ 32) {ownIp : Ipv4Addr} {call : ArpCall}
    (isHeld : Held run.table ip) (notHeld : ¬ Held (run.call ownIp time call).table ip) :
    call = .remove ip ∨ (call.Inspects ip ∧ Expired run time ip) ∨
      ∃ new, call.Updates new ∧ MakesRoom run new ip := by
  cases call with
  | update new mac =>
      exact Or.inr (Or.inr ⟨new, rfl, tracks.update_loses later span isHeld notHeld⟩)
  | lookup found => exact Or.inr (Or.inl (tracks.lookup_loses later isHeld notHeld))
  | remove removed =>
      rw [remove_loses isHeld notHeld]
      exact Or.inl rfl
  | expire =>
      exact Or.inr (Or.inl ⟨trivial, tracks.expire_loses later isHeld notHeld⟩)
  | handle packet =>
      change ¬ Held (run.handle time ownIp packet).table ip at notHeld
      unfold ArpRun.handle at notHeld
      split at notHeld
      · split at notHeld
        · exact Or.inr (Or.inr ⟨packet.senderIp, rfl,
            tracks.update_loses later span isHeld notHeld⟩)
        · split at notHeld
          · next isSome =>
              -- A lookup that succeeds leaves the table as it was, and finds the
              -- entry that is updated.
              rcases Option.isSome_iff_exists.mp isSome with ⟨mac, isAnswer⟩
              rcases tracks.answer_latest later isAnswer with ⟨_, _, _, _, isFound⟩
              have sameTable := lookup_of_answer isAnswer
              have makesRoom := (tracks.lookup later packet.senderIp).update_loses
                (Nat.le_refl time) span (by rw [sameTable]; exact isHeld) notHeld
              have isNew := makesRoom.isNew
              rw [sameTable] at isNew
              exact absurd isFound isNew
          · exact Or.inr (Or.inl (tracks.lookup_loses later isHeld notHeld))
      · exact absurd isHeld notHeld

end Losses

/-! ## Entries from packets only -/

/-- An address that a packet can come from. -/
def Proper (ownIp : Ipv4Addr) (entry : ArpEntry) : Prop :=
  entry.ip ≠ ipv4Zero ∧ entry.ip ≠ ipv4Ones ∧ entry.ip ≠ ownIp ∧
    entry.mac ≠ macZero ∧ macIsMulticast entry.mac = false

def AllProper (ownIp : Ipv4Addr) (table : ArpTable) : Prop :=
  ∀ index, (table index).used = true → Proper ownIp (table index)

section Packets

variable {ownIp : Ipv4Addr} {run : ArpRun} {time : Nat}

/-- Entries that are still in use are as they were. -/
theorem AllProper.shrink {table table' : ArpTable} (proper : AllProper ownIp table)
    (shrinks : ∀ index, (table' index).used = true → table' index = table index) :
    AllProper ownIp table' := by
  intro index isUsed
  have same := shrinks index isUsed
  rw [same] at isUsed ⊢
  exact proper index isUsed

theorem senderIsValid_proper {packet : ArpPacket} {now : UInt32}
    (valid : senderIsValid packet ownIp = true) :
    Proper ownIp ⟨packet.senderIp, packet.senderMac, now, true⟩ := by
  unfold senderIsValid at valid
  rw [decide_eq_true_eq] at valid
  rcases valid with ⟨notReserved, notOwn, notMac⟩
  refine ⟨fun isZero => notReserved (Or.inl isZero), fun isOnes => notReserved (Or.inr isOnes),
    notOwn, fun isZero => notMac (Or.inl isZero), ?_⟩
  exact Bool.eq_false_iff.mpr fun isMulticast => notMac (Or.inr isMulticast)

theorem AllProper.update (proper : AllProper ownIp run.table) {packet : ArpPacket}
    (valid : senderIsValid packet ownIp = true) :
    AllProper ownIp (run.update time packet.senderIp packet.senderMac).table := by
  rcases arpTableUpdate_cases run.table packet.senderIp packet.senderMac
    (UInt32.ofNat time) with ⟨found, isUpdate, _⟩
  have isTable : (run.update time packet.senderIp packet.senderMac).table =
      Function.update run.table found
        ⟨packet.senderIp, packet.senderMac, UInt32.ofNat time, true⟩ := isUpdate
  intro index isUsed
  rw [isTable] at isUsed ⊢
  by_cases isFound : index = found
  · rw [isFound, Function.update_self]
    exact senderIsValid_proper valid
  · rw [Function.update_of_ne isFound] at isUsed ⊢
    exact proper index isUsed

theorem AllProper.call (proper : AllProper ownIp run.table) {call : ArpCall}
    (noUpdate : ∀ ip mac, call ≠ .update ip mac) :
    AllProper ownIp (run.call ownIp time call).table := by
  cases call with
  | update ip mac => exact absurd rfl (noUpdate ip mac)
  | lookup ip => exact proper.shrink (lookup_shrinks run time ip)
  | remove ip => exact proper.shrink (remove_shrinks run time ip)
  | expire => exact proper.shrink (expire_shrinks run time)
  | handle packet =>
      change AllProper ownIp (run.handle time ownIp packet).table
      unfold ArpRun.handle
      split
      · next valid =>
          split
          · exact proper.update valid
          · split
            · exact (proper.shrink (lookup_shrinks run time _)).update valid
            · exact proper.shrink (lookup_shrinks run time _)
      · exact proper

end Packets

theorem reached_proper {ownIp : Ipv4Addr} {start : Nat}
    {allowed : ArpRun → Nat → ArpCall → Prop}
    (noUpdate : ∀ run time call, allowed run time call →
      ∀ ip mac, call ≠ .update ip mac)
    {run : ArpRun} (reached : ArpReached ownIp start allowed run) :
    AllProper ownIp run.table := by
  induction reached with
  | init => exact fun index isUsed => absurd isUsed (by simp [ArpRun.start, arpTableInit])
  | call _ time call _ isAllowed proper =>
      exact proper.call (noUpdate _ time call isAllowed)

/-! ## Runs shorter than the range of the clock -/

/-- The calls are made before the clock returns to where it started. -/
def InSpan (start : Nat) (_ : ArpRun) (time : Nat) (_ : ArpCall) : Prop :=
  time < start + 2 ^ 32

/-- The same, and nothing is stored but the senders of packets. -/
def FromPackets (start : Nat) (_ : ArpRun) (time : Nat) (call : ArpCall) : Prop :=
  time < start + 2 ^ 32 ∧ ∀ ip mac, call ≠ .update ip mac

/-- The table is a map with expiry. -/
theorem arpTable_refines (ownIp : Ipv4Addr) (start : Nat) :
    (∀ run, ArpReached ownIp start (InSpan start) run →
      Unique run.table ∧
      (∀ time ip mac, run.clock ≤ time → time < start + 2 ^ 32 →
        ((arpTableLookup run.table ip (UInt32.ofNat time)).1 = some mac ↔
          ∃ updated, latest run.history ip = some (mac, updated) ∧
            time - updated < 60000)) ∧
      (∀ time call ip, run.clock ≤ time → time < start + 2 ^ 32 →
        Held run.table ip → ¬ Held (run.call ownIp time call).table ip →
        call = .remove ip ∨ (call.Inspects ip ∧ Expired run time ip) ∨
          ∃ new, call.Updates new ∧ MakesRoom run new ip)) ∧
    (∀ run, ArpReached ownIp start (FromPackets start) run →
      AllProper ownIp run.table) := by
  refine ⟨fun run reached => ?_, fun run reached => ?_⟩
  · have tracks := reached_tracks reached
    refine ⟨tracks.unique, ?_, ?_⟩
    · intro time ip mac later span
      constructor
      · intro isAnswer
        rcases tracks.answer_latest later isAnswer with
          ⟨updated, isLatest, isPast, young, _⟩
        have isStart := (tracks.past ip mac updated isLatest).1
        rw [Nat.mod_eq_of_lt (by omega)] at young
        exact ⟨updated, isLatest, young⟩
      · rintro ⟨updated, isLatest, young⟩
        exact tracks.latest_answer later isLatest young
    · intro time call ip later span isHeld notHeld
      exact tracks.call_loses later span isHeld notHeld
  · exact reached_proper (fun _ _ _ isAllowed => isAllowed.2) reached

/-! ## Runs of any length -/

/-- Every answer was stored for its address less than a lifetime before. -/
def AllFresh (run : ArpRun) : Prop :=
  ∀ ip mac time, .answered ip mac time ∈ run.history → ∃ updated,
    .stored ip mac updated ∈ run.history ∧ updated ≤ time ∧ time - updated < 60000

/-- The calls that the network code makes. -/
def NetCall (_ : ArpRun) (_ : Nat) (call : ArpCall) : Prop :=
  match call with
  | .lookup _ => True
  | .handle _ => True
  | _ => False

/-- The entry for the address is older than the range of the clock, and the low bits
of its age are those of a young one. -/
def Revived (run : ArpRun) (time : Nat) (ip : Ipv4Addr) : Prop :=
  Held run.table ip ∧ ∃ mac updated, latest run.history ip = some (mac, updated) ∧
    2 ^ 32 ≤ time - updated ∧ (time - updated) % 2 ^ 32 < 60000

/-- A call of the network code that does not meet a revived entry. -/
def NoneRevived (run : ArpRun) (time : Nat) (call : ArpCall) : Prop :=
  match call with
  | .lookup ip => ¬ Revived run time ip
  | .handle packet => ¬ Revived run time packet.senderIp
  | _ => False

section Freshness

variable {start time : Nat} {run : ArpRun}

theorem latest_mem {ip : Ipv4Addr} {mac : MacAddr} {updated : Nat} :
    ∀ {events : List ArpEvent}, latest events ip = some (mac, updated) →
      .stored ip mac updated ∈ events
  | .stored other otherMac otherTime :: events, isLatest => by
      simp only [latest] at isLatest
      split at isLatest
      · next isIp =>
          cases isLatest
          rw [isIp]
          exact List.mem_cons_self
      · exact List.mem_cons_of_mem _ (latest_mem isLatest)
  | .removed other :: events, isLatest => by
      simp only [latest] at isLatest
      split at isLatest
      · cases isLatest
      · exact List.mem_cons_of_mem _ (latest_mem isLatest)
  | .evicted other :: events, isLatest => by
      simp only [latest] at isLatest
      split at isLatest
      · cases isLatest
      · exact List.mem_cons_of_mem _ (latest_mem isLatest)
  | .answered _ _ _ :: events, isLatest =>
      List.mem_cons_of_mem _ (@latest_mem _ _ _ events isLatest)

theorem AllFresh.lookup (tracks : Tracks start run) (fresh : AllFresh run)
    (later : run.clock ≤ time) {ip : Ipv4Addr} (notRevived : ¬ Revived run time ip) :
    AllFresh (run.lookup time ip) := by
  cases isAnswer : run.answer time ip with
  | none =>
      have same : (run.lookup time ip).history = run.history := by
        unfold ArpRun.lookup
        simp only [isAnswer]
      unfold AllFresh
      rw [same]
      exact fresh
  | some found =>
      have isHistory : (run.lookup time ip).history =
          .answered ip found time :: run.history := by
        unfold ArpRun.lookup
        simp only [isAnswer]
      rcases tracks.answer_latest later isAnswer with
        ⟨updated, isLatest, isPast, young, isHeld⟩
      unfold AllFresh
      rw [isHistory]
      intro other mac answered member
      rcases List.mem_cons.mp member with isThis | inRest
      · cases isThis
        have short : time - updated < 2 ^ 32 := by
          by_contra long
          exact notRevived ⟨isHeld, found, updated, isLatest, Nat.not_lt.mp long, young⟩
        rw [Nat.mod_eq_of_lt short] at young
        exact ⟨updated, List.mem_cons_of_mem _ (latest_mem isLatest), isPast, young⟩
      · rcases fresh other mac answered inRest with ⟨updated, isStored, rest⟩
        exact ⟨updated, List.mem_cons_of_mem _ isStored, rest⟩

theorem AllFresh.update (fresh : AllFresh run) (ip : Ipv4Addr) (mac : MacAddr) :
    AllFresh (run.update time ip mac) := by
  intro other otherMac answered member
  have isHistory : (run.update time ip mac).history = .stored ip mac time ::
      ((lostBetween run.table (run.update time ip mac).table).map .evicted ++
        run.history) := rfl
  rw [isHistory] at member ⊢
  simp only [List.mem_cons, List.mem_append, List.mem_map, reduceCtorEq, and_false,
    exists_false, false_or] at member
  rcases fresh other otherMac answered member with ⟨updated, isStored, rest⟩
  exact ⟨updated, List.mem_cons_of_mem _ (List.mem_append_right _ isStored), rest⟩

theorem AllFresh.call (tracks : Tracks start run) (fresh : AllFresh run)
    (later : run.clock ≤ time) {ownIp : Ipv4Addr} {call : ArpCall}
    (noneRevived : NoneRevived run time call) :
    AllFresh (run.call ownIp time call) := by
  cases call with
  | update ip mac => cases noneRevived
  | lookup ip => exact fresh.lookup tracks later noneRevived
  | remove ip => cases noneRevived
  | expire => cases noneRevived
  | handle packet =>
      change AllFresh (run.handle time ownIp packet)
      unfold ArpRun.handle
      split
      · split
        · exact fresh.update _ _
        · split
          · exact (fresh.lookup tracks later noneRevived).update _ _
          · exact fresh.lookup tracks later noneRevived
      · exact fresh

end Freshness

/-- In a run in which no call meets a revived entry, every answer is fresh. -/
theorem reached_fresh {ownIp : Ipv4Addr} {start : Nat} {run : ArpRun}
    (reached : ArpReached ownIp start NoneRevived run) : AllFresh run := by
  induction reached with
  | init => exact fun _ _ _ impossible => absurd impossible List.not_mem_nil
  | call before time call later isAllowed fresh =>
      exact fresh.call (reached_tracks before) later isAllowed

def stationIp : Ipv4Addr := ⟨[10, 0, 2, 15], rfl⟩

def routerIp : Ipv4Addr := ⟨[10, 0, 2, 2], rfl⟩

def routerMac : MacAddr := ⟨[0x52, 0x54, 0, 0x12, 0x35, 2], rfl⟩

/-- A request of the router for the address of the station. -/
def routerRequest : ArpPacket := ⟨arpRequest, routerMac, routerIp, macZero, stationIp⟩

/-- The router is heard of once and looked up at a time. -/
def heardOnce (time : Nat) : ArpRun :=
  ((ArpRun.start 0).call stationIp 0 (.handle routerRequest)).call stationIp time
    (.lookup routerIp)

theorem heardOnce_fresh :
    .answered routerIp routerMac 100 ∈ (heardOnce 100).history ∧
      AllFresh (heardOnce 100) := by
  have notStart : ¬ Revived (ArpRun.start 0) 0 routerIp := by
    rintro ⟨isHeld, _⟩
    exact absurd isHeld (by decide +kernel)
  have notLater : ¬ Revived ((ArpRun.start 0).call stationIp 0 (.handle routerRequest))
      100 routerIp := by
    rintro ⟨_, _, _, _, long, _⟩
    omega
  have heard : ArpReached stationIp 0 NoneRevived _ :=
    ArpReached.call ArpReached.init 0 (.handle routerRequest) (Nat.le_refl 0) notStart
  have looked := ArpReached.call heard 100 (.lookup routerIp) (Nat.zero_le 100) notLater
  refine ⟨by decide +kernel, reached_fresh looked⟩

theorem answer_after_wrap_not_fresh :
    ¬ ∀ run, ArpReached stationIp 0 NetCall run → AllFresh run := by
  intro allFresh
  have heard : ArpReached stationIp 0 NetCall _ :=
    ArpReached.call ArpReached.init 0 (.handle routerRequest) (Nat.le_refl 0) trivial
  have looked := ArpReached.call heard (2 ^ 32) (.lookup routerIp) (Nat.zero_le _) trivial
  have isHistory : (heardOnce (2 ^ 32)).history =
      [.answered routerIp routerMac (2 ^ 32), .stored routerIp routerMac 0] := by
    decide +kernel
  have fresh := allFresh (heardOnce (2 ^ 32)) looked
  unfold AllFresh at fresh
  rw [isHistory] at fresh
  rcases fresh routerIp routerMac (2 ^ 32) List.mem_cons_self with
    ⟨updated, isStored, _, young⟩
  simp only [List.mem_cons, reduceCtorEq, ArpEvent.stored.injEq, true_and,
    List.not_mem_nil, or_false, false_or] at isStored
  omega

end Katela.Net
