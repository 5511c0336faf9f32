import BroadcomWl.Wext.IwHandlers

/-!
# Dispatching the wireless extensions

`wl_iw_ioctl` looks the handler of a request up, allocates a buffer whose size depends on the
command where the user gave one, copies so many of the user's bytes into it, calls the handler,
and copies as many bytes back as the length that the handler has left says. A request is contained
when no load or store of this leaves its buffer.
-/

namespace BroadcomWl.Wext.Iw

open BroadcomWl.Memory

/-! ## Handlers and commands -/

/-- The handlers of `wl_iw_handler`. -/
inductive Handler where
  | configCommit
  | getName
  | setFreq
  | getFreq
  | setMode
  | getMode
  | getRange
  | setSpy
  | getSpy
  | setWap
  | getWap
  | mlme
  | getAplist
  | setScan
  | getScan
  | setEssid
  | getEssid
  | setNick
  | getNick
  | setRate
  | getRate
  | setRts
  | getRts
  | setFrag
  | getFrag
  | setTxpow
  | getTxpow
  | setRetry
  | getRetry
  | setEncode
  | getEncode
  | setPower
  | getPower
  | setWpaie
  | getWpaie
  | setWpaauth
  | getWpaauth
  | setEncodeext
  | getEncodeext
  | setPmksa
deriving DecidableEq, Repr

/-- `wl_iw_handler`. -/
def wlIwHandler : List (Option Handler) :=
  [some .configCommit, some .getName, none, none, some .setFreq, some .getFreq, some .setMode,
    some .getMode, none, none, none, some .getRange, none, none, none, none, some .setSpy,
    some .getSpy, none, none, some .setWap, some .getWap, some .mlme, some .getAplist,
    some .setScan, some .getScan, some .setEssid, some .getEssid, some .setNick, some .getNick,
    none, none, some .setRate, some .getRate, some .setRts, some .getRts, some .setFrag,
    some .getFrag, some .setTxpow, some .getTxpow, some .setRetry, some .getRetry,
    some .setEncode, some .getEncode, some .setPower, some .getPower, none, none, some .setWpaie,
    some .getWpaie, some .setWpaauth, some .getWpaauth, some .setEncodeext, some .getEncodeext,
    some .setPmksa]

def siociwfirst : ℤ := 0x8B00
def siocgiwrange : ℤ := 0x8B0B
def siocsiwspy : ℤ := 0x8B10
def siocgiwspy : ℤ := 0x8B11
def siocgiwaplist : ℤ := 0x8B17
def siocgiwscan : ℤ := 0x8B19
def siocsiwessid : ℤ := 0x8B1A
def siocgiwessid : ℤ := 0x8B1B
def siocsiwnickn : ℤ := 0x8B1C
def siocgiwnickn : ℤ := 0x8B1D
def siocsiwencode : ℤ := 0x8B2A
def siocgiwencode : ℤ := 0x8B2B
def siocsiwencodeext : ℤ := 0x8B34
def siocgiwencodeext : ℤ := 0x8B35

/-- The handler of a command. -/
def handlerOf (cmd : ℤ) : Option Handler :=
  if cmd < siociwfirst then none else (wlIwHandler[(cmd - siociwfirst).toNat]?).join

/-- `token_size` and `max_tokens`: the switch over the command. -/
def tokensOf (cmd : ℤ) : ℕ × ℕ :=
  if cmd ∈ [siocsiwessid, siocgiwessid, siocsiwnickn, siocgiwnickn] then (1, iwEssidMaxSize + 1)
  else if cmd ∈ [siocsiwencode, siocgiwencode, siocsiwencodeext, siocgiwencodeext] then
    (1, iwEncodingTokenMax)
  else if cmd = siocgiwrange then (1, iwRangeSize)
  else if cmd = siocgiwaplist then (sockaddrSize + iwQualitySize, iwMaxAp)
  else if cmd = siocgiwscan then (1, iwScanMaxData)
  else if cmd = siocsiwspy then (sockaddrSize, iwMaxSpy)
  else if cmd = siocgiwspy then (sockaddrSize + iwQualitySize, iwMaxSpy)
  else (1, 0)

/-- The same, by handler. -/
def Handler.tokens : Handler → ℕ × ℕ
  | .setEssid | .getEssid | .setNick | .getNick => (1, 33)
  | .setEncode | .getEncode | .setEncodeext | .getEncodeext => (1, 64)
  | .getRange => (1, 568)
  | .getAplist => (20, 64)
  | .getScan => (1, 4096)
  | .setSpy => (16, 8)
  | .getSpy => (20, 8)
  | _ => (1, 0)

theorem tokensOf_index : ∀ index < wlIwHandler.length, ∀ handler,
    (wlIwHandler[index]?).join = some handler →
      tokensOf (siociwfirst + index) = handler.tokens := by
  decide

theorem tokensOf_eq {cmd : ℤ} {handler : Handler} (h : handlerOf cmd = some handler) :
    tokensOf cmd = handler.tokens := by
  unfold handlerOf at h
  split at h
  · cases h
  rename_i hfirst
  have hindex : (cmd - siociwfirst).toNat < wlIwHandler.length := by
    by_contra hlast
    rw [List.getElem?_eq_none (Nat.not_lt.mp hlast)] at h
    cases h
  have hcmd : siociwfirst + ((cmd - siociwfirst).toNat : ℤ) = cmd := by omega
  have htokens := tokensOf_index _ hindex handler h
  rwa [hcmd] at htokens

/-- What a handler does. -/
def Handler.run (handler : Handler) (platform : Platform) (iw : WlIw) (dwrq : IwPoint)
    (extra : Option (ℕ → UInt8)) : Handled :=
  match handler with
  | .getRange => wlIwGetRange platform iw dwrq extra
  | .setSpy => wlIwSetSpy iw dwrq extra
  | .getSpy => wlIwGetSpy iw dwrq extra
  | .mlme => wlIwMlme platform iw dwrq extra
  | .getAplist => wlIwGetAplist platform iw dwrq extra
  | .setScan => wlIwSetScan iw dwrq extra
  | .getScan => wlIwGetScan platform iw dwrq extra
  | .setEssid => wlIwSetEssid platform iw dwrq extra
  | .getEssid => wlIwGetEssid platform iw dwrq extra
  | .setNick => wlIwSetNick iw dwrq extra
  | .getNick => wlIwGetNick iw dwrq extra
  | .setEncode => wlIwSetEncode platform iw dwrq extra
  | .getEncode => wlIwGetEncode platform iw dwrq extra
  | .setWpaie => wlIwSetWpaie platform iw dwrq
  | .getWpaie => wlIwGetWpaie platform iw dwrq
  | .setEncodeext => wlIwSetEncodeextBuffers platform iw dwrq extra
  | .getEncodeext => wlIwGetEncodeext iw dwrq
  | .setPmksa => wlIwSetPmksa iw dwrq extra
  | _ => withoutBuffer platform iw dwrq

/-! ## The dispatcher -/

/-- A request: the command, the user's bytes behind the pointer if there is one, and the length
and the flags beside it. -/
structure Request where
  cmd : ℤ
  pointer : Option (ℕ → UInt8)
  data : IwPoint

/-- Whether there is memory for the buffer, whether the copies succeed, and what the fresh buffer
holds. -/
structure Copies where
  kmalloc : Bool
  fromUser : Bool
  toUser : Bool
  stale : ℕ → UInt8

/-- What `wl_iw_ioctl` leaves: `extra` says whether the handler was given a buffer. -/
structure Result where
  ret : ℤ
  extra : Bool
  log : List (Op Buffer)
  dwrq : IwPoint
  iw : WlIw

/-- The buffer for the handler, or an error. -/
def copyIn (copies : Copies) (request : Request) : Except ℤ (Option (ℕ → UInt8)) :=
  let (tokenSize, maxTokens) := tokensOf request.cmd
  match request.pointer with
  | none => .ok none
  | some user =>
      if maxTokens = 0 then .ok none
      else if maxTokens < request.data.length.toNat then .error (-e2big)
      else if !copies.kmalloc then .error (-enomem)
      else if !copies.fromUser then .error (-efault)
      else
        .ok (some fun i ↦
          if i < request.data.length.toNat * tokenSize then user i else copies.stale i)

/-- `wl_iw_ioctl`. -/
def wlIwIoctl (platform : Platform) (copies : Copies) (iw : WlIw) (request : Request) : Result :=
  match handlerOf request.cmd with
  | none => ⟨-eopnotsupp, false, [], request.data, iw⟩
  | some handler =>
      match copyIn copies request with
      | .error error => ⟨error, false, [], request.data, iw⟩
      | .ok extra =>
          let handled := handler.run platform iw request.data extra
          ⟨if extra.isSome && !copies.toUser then -efault else handled.ret, extra.isSome,
            handled.log, handled.dwrq, handled.iw⟩

/-! ## Containment -/

/-- The buffers of a request with `length` tokens: `extra`, if there is one, has room for all
tokens and holds the user's; the list of scan results has as many bytes as the length says. -/
def bufferSizes (extra : Bool) (tokens : ℕ × ℕ) (length : ℕ) : BufferSizes Buffer where
  capacity
    | .extra => if extra then tokens.2 * tokens.1 else 0
    | .list => length
    | .nickname => iwEssidMaxSize
    | .beforeNickname => 0
    | .spyAddr => iwMaxSpy * 6
    | .spyQual => iwMaxSpy * iwQualitySize
  filled
    | .extra => if extra then length * tokens.1 else 0
    | _ => 0

/-- No load or store leaves its buffer, and no byte outside `extra` is copied back. -/
structure Contained (tokens : ℕ × ℕ) (length : ℕ) (extra : Bool) (log : List (Op Buffer))
    (left : ℕ) : Prop where
  sound : LogSound (bufferSizes extra tokens length) log
  returned : extra = true → left * tokens.1 ≤ tokens.2 * tokens.1

/-- What a request does is contained. -/
def Result.Contained (request : Request) (result : Result) : Prop :=
  Iw.Contained (tokensOf request.cmd) request.data.length.toNat result.extra result.log
    result.dwrq.length.toNat

end BroadcomWl.Wext.Iw
