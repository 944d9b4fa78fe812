import DemandPaging.Pager.Copy
import DemandPaging.Pager.Interrupt
import DemandPaging.Pager.Load
import DemandPaging.Pager.Query

/-!
# Operations and runs

Every request to the pager as a value, so that what holds of one operation can be carried along a
run of them. Three requests are not the kernel's own: a medium that fails or works again, an
address space that refuses new pages or takes them again, and one that refuses by a plan.

## Main definitions

* `Op`, `Answer` — the requests and what they answer.
* `Pager.perform` — one request.
* `Pager.run` — a list of requests, up to the first panic.
-/

namespace DemandPaging

/-- The requests to the pager. -/
inductive Op
  | register (pid : Nat)
  | destroy (pid : Nat)
  | refuse (pid : Nat) (refusing : Bool)
  | refuseBy (pid : Nat) (refuses : Nat → Bool)
  | failReads (file : Nat) (failing : Bool)
  | declareZero (pid page : Nat) (writable : Bool)
  | tryDeclareZero (pid page : Nat) (writable : Bool)
  | declareImage (pid page : Nat) (file : Handle) (offset read : Nat) (writable : Bool)
  | tryDeclareImage (pid page : Nat) (file : Handle) (offset read : Nat) (writable : Bool)
  | loadElf (pid : Nat) (file : Handle)
  | pageFault (pid addr esp : Nat)
  | interrupt (pid addr esp : Nat) (code : FaultCode)
  | validAddress (pid addr esp : Nat) (forWrite : Bool)
  | pin (pid start size esp : Nat) (forWrite : Bool)
  | unpin (pid start size : Nat)
  | copyFromUser (pid start length esp : Nat)
  | copyToUser (pid start : Nat) (data : Bytes) (esp : Nat)
  | mapFile (pid : Nat) (file : Handle) (addr : Nat)
  | unmapFile (pid id : Nat)

/-- What a request answers. -/
inductive Answer
  /-- The request has nothing to say. -/
  | done
  | yesNo (b : Bool)
  | resolved (result : Except FaultError Unit)
  | bytes (result : Except FaultError Bytes)
  | mapped (result : Except MmapError Nat)
  | loaded (result : Except LoadError Program)
  | trapped (outcome : FaultOutcome)

namespace Pager

/-- Carries out one request. -/
def perform : Op → PagerM Answer
  | .register pid => do register pid; return .done
  | .destroy pid => do destroy pid; return .done
  | .refuse pid refusing => do refuse pid refusing; return .done
  | .refuseBy pid refuses => do refuseBy pid refuses; return .done
  | .failReads file failing => do failReads file failing; return .done
  | .declareZero pid page writable => do declareZero pid page writable; return .done
  | .tryDeclareZero pid page writable => return .yesNo (← tryDeclareZero pid page writable)
  | .declareImage pid page file offset read writable => do
    declareImage pid page file offset read writable
    return .done
  | .tryDeclareImage pid page file offset read writable =>
    return .yesNo (← tryDeclareImage pid page file offset read writable)
  | .loadElf pid file => return .loaded (← loadElf pid file)
  | .pageFault pid addr esp => return .resolved (← pageFault pid addr esp)
  | .interrupt pid addr esp code => return .trapped (← handlePageFault pid addr esp code)
  | .validAddress pid addr esp forWrite => return .yesNo (← validAddress pid addr esp forWrite)
  | .pin pid start size esp forWrite => return .resolved (← pin pid start size esp forWrite)
  | .unpin pid start size => do unpin pid start size; return .done
  | .copyFromUser pid start length esp => return .bytes (← copyFromUser pid start length esp)
  | .copyToUser pid start data esp => return .resolved (← copyToUser pid start data esp)
  | .mapFile pid file addr => return .mapped (← mapFile pid file addr)
  | .unmapFile pid id => do unmapFile pid id; return .done

/-- Carries out the requests in turn and collects the answers. A panic ends the run. -/
def run : List Op → PagerM (List Answer)
  | [] => return []
  | op :: rest => do
    let answer ← perform op
    return answer :: (← run rest)

end Pager

end DemandPaging
