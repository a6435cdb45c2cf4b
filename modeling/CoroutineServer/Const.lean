/-!
# Protocol constants

The bounds of `const.h`, shared by the server and the test client, and the message ids of the
protocol. Lengths are natural numbers and ids are the integers a `short` holds.
-/

namespace CoroutineServer

def MAX_LENGTH : Nat := 1024 * 2
def HEAD_TOTAL_LEN : Nat := 4
def HEAD_ID_LEN : Nat := 2
def HEAD_DATA_LEN : Nat := 2

def MAX_RECVQUE : Nat := 10000
def MAX_SENDQUE : Nat := 1000

def MIN_USERNAME_LEN : Nat := 2
def MAX_USERNAME_LEN : Nat := 32
def MIN_PASSWORD_LEN : Nat := 3
def MAX_PASSWORD_LEN : Nat := 64
def MAX_MESSAGE_LEN : Nat := 2048

def MSG_HELLO_WORLD : Int := 1001
def MSG_REGISTER_REQ : Int := 2001
def MSG_REGISTER_RSP : Int := 2002
def MSG_LOGIN_REQ : Int := 2003
def MSG_LOGIN_RSP : Int := 2004
def MSG_GET_FRIEND_LIST_REQ : Int := 2005
def MSG_GET_FRIEND_LIST_RSP : Int := 2006
def MSG_ADD_FRIEND_REQ : Int := 2007
def MSG_ADD_FRIEND_RSP : Int := 2008
def MSG_FRIEND_REQUEST_PUSH : Int := 2009
def MSG_SEND_CHAT_REQ : Int := 2010
def MSG_SEND_CHAT_RSP : Int := 2011
def MSG_CHAT_MSG_PUSH : Int := 2012
def MSG_OFFLINE_MSG_REQ : Int := 2013
def MSG_OFFLINE_MSG_RSP : Int := 2014

/-- The upper end of the id range, a literal in the read loop. -/
def MAX_MSG_ID : Int := 9999

end CoroutineServer
