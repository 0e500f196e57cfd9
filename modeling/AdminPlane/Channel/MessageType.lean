import AdminPlane.Decimal.Numeral

namespace AdminPlane.Channel

/-- What a frame is about. Bytes 10 to 19 are left to handlers of no registered type. -/
inductive MessageType where
  | initialisation
  | listPeersRequest
  | listPeersResponse
  | inspectPeerRequest
  | inspectPeerResponse
  | changePeerStatusRequest
  | listCidFrequencyRequest
  | listCidFrequencyResponse
  | getOfferByCidRequest
  | getOfferByCidResponse
  | cacheOfferByDigestRequest
  | listFilesRequest
  | listFilesResponse
  | publishOfferRequest
  | uploadFileRequest
  | ack
deriving DecidableEq, Repr

namespace MessageType

def all : List MessageType :=
  [initialisation, listPeersRequest, listPeersResponse, inspectPeerRequest, inspectPeerResponse,
   changePeerStatusRequest, listCidFrequencyRequest, listCidFrequencyResponse,
   getOfferByCidRequest, getOfferByCidResponse, cacheOfferByDigestRequest, listFilesRequest,
   listFilesResponse, publishOfferRequest, uploadFileRequest, ack]

def toByte : MessageType → UInt8
  | initialisation => 0
  | listPeersRequest => 1
  | listPeersResponse => 2
  | inspectPeerRequest => 3
  | inspectPeerResponse => 4
  | changePeerStatusRequest => 5
  | listCidFrequencyRequest => 6
  | listCidFrequencyResponse => 7
  | getOfferByCidRequest => 8
  | getOfferByCidResponse => 9
  | cacheOfferByDigestRequest => 20
  | listFilesRequest => 21
  | listFilesResponse => 22
  | publishOfferRequest => 23
  | uploadFileRequest => 24
  | ack => 255

def ofByte? (b : UInt8) : Option MessageType := all.find? fun t => t.toByte = b

def name : MessageType → String
  | initialisation => "initialisation"
  | listPeersRequest => "list_peers_request"
  | listPeersResponse => "list_peers_response"
  | inspectPeerRequest => "inspect_peer_request"
  | inspectPeerResponse => "inspect_peer_response"
  | changePeerStatusRequest => "change_peer_status_request"
  | listCidFrequencyRequest => "list_cid_frequency_request"
  | listCidFrequencyResponse => "list_cid_frequency_response"
  | getOfferByCidRequest => "get_offer_by_cid_request"
  | getOfferByCidResponse => "get_offer_by_cid_response"
  | cacheOfferByDigestRequest => "cache_offer_by_digest_request"
  | listFilesRequest => "list_files_request"
  | listFilesResponse => "list_files_response"
  | publishOfferRequest => "publish_offer_request"
  | uploadFileRequest => "upload_file_request"
  | ack => "ack"

/-- The name of the registered type of a byte. -/
def label (b : UInt8) : String := (ofByte? b).elim "unregistered" name

/-- The name with the byte in parentheses. -/
def display (t : MessageType) : String := t.name ++ "(" ++ Decimal.natural t.toByte.toNat ++ ")"

end MessageType

end AdminPlane.Channel
