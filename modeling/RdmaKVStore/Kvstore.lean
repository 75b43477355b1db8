import RdmaKVStore.HashTable

/-!
# Request processing

`set_request`, `get_request` and `del_request` of `kvstore.c` and the method
switch of `main_job`, as executed by one worker without interruption.  A
worker clears its response structure before the switch.
-/

namespace RdmaKVStore

namespace HashTable

def setRwlock (ht : HashTable) (p : Ptr) (lock : RwLock WorkerId) :
    HashTable :=
  ht.writeItem p fun item => { item with rwlock := lock }

/-- The locked body of `set_request`: a fresh value block receives the payload
and the size field the announced length. -/
def storeValue (ht : HashTable) (p : Ptr) (request : Request) : HashTable :=
  ht.writeItem p fun item =>
    { item with value := some request.payload, valueSize := request.msgLen }

end HashTable

namespace Response

/-- The locked body of `get_request`; a copy that is longer than the message
array is cut off. -/
def copyValue (response : Response) (item : HashItem) : Response where
  code := .ok
  msg := writeArray response.msg
    ((item.value.getD []).take item.valueSize.toNat)
  msgLen := item.valueSize

end Response

/-- `set_request` -/
def setRequest (worker : WorkerId) (ht : HashTable) (request : Request)
    (response : Response) : Option (HashTable × Response) :=
  (ht.getKeyEntry worker request.keyMemory request.keyLen.toNat).bind
    fun (ht, p) => (ht.heap p).map fun item =>
      match item.rwlock.trywrlock worker with
      | none => (ht, { response with code := .keyError })
      | some held =>
          (((ht.setRwlock p held).storeValue p request).unlockItem worker p,
            { response with code := .ok })

/-- `get_request` -/
def getRequest (worker : WorkerId) (ht : HashTable) (request : Request)
    (response : Response) : Option (HashTable × Response) :=
  (ht.search request.keyMemory request.keyLen.toNat).bind fun found =>
    match found with
    | none => some (ht, { response with code := .keyError })
    | some p => (ht.heap p).map fun item =>
        match item.rwlock.tryrdlock worker with
        | none => (ht, { response with code := .keyError })
        | some held =>
            ((ht.setRwlock p held).unlockItem worker p,
              response.copyValue item)

/-- `del_request` -/
def delRequest (worker : WorkerId) (ht : HashTable) (request : Request)
    (response : Response) : Option (HashTable × Response) :=
  (ht.removeItem worker request.keyMemory request.keyLen.toNat).map
    fun (ht, result) =>
      if result < 0 then (ht, { response with code := .keyError })
      else (ht, { response with code := .ok })

/-- The method switch of `main_job` on a cleared response. -/
def execute (worker : WorkerId) (ht : HashTable) (request : Request) :
    Option (HashTable × Response) :=
  match request.method with
  | .set => setRequest worker ht request Response.zero
  | .get => getRequest worker ht request Response.zero
  | .del => delRequest worker ht request Response.zero
  | .rst =>
      some (ht.initHashtable htCapacity, { Response.zero with code := .ok })
  | _ => some (ht, Response.zero)

/-- Requests executed one after another by their workers, with their
responses. -/
def executeAll (ht : HashTable) :
    List (WorkerId × Request) → Option (HashTable × List Response)
  | [] => some (ht, [])
  | (worker, request) :: turns =>
      (execute worker ht request).bind fun (ht, response) =>
        (executeAll ht turns).map fun (ht, responses) =>
          (ht, response :: responses)

end RdmaKVStore
