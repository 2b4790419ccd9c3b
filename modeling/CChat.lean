import CChat.Library.Framing
import CChat.Library.Circular
import CChat.Library.Runs
import CChat.Library.Interleaving
import CChat.Server.Authenticity
import CChat.Server.Challenges
import CChat.Server.Acknowledgements
import CChat.Server.Answers
import CChat.Server.Conversation
import CChat.Server.Presence
import CChat.Client.Lookup
import CChat.Client.Pairing
import CChat.Client.Retries
import CChat.Client.Chat
import CChat.Client.ChatLoop
import CChat.Client.Connections
import CChat.Client.Sessions
import CChat.Client.Secrecy
import CChat.Client.Prompt
import CChat.Client.CommandLine
import CChat.Client.Accounts
import CChat.Client.Heap
import CChat.Client.Usernames
import CChat.Client.RegistrationRun
import CChat.Client.Bounds
import CChat.Client.Relay
import CChat.Client.Directory
import CChat.Client.Streams
import CChat.Server.Limits
import CChat.Server.Listeners
import CChat.Server.Bounds
import CChat.Server.Releases
import CChat.Server.Descriptors
import CChat.Server.Blindness
import CChat.Server.Service
import CChat.Threads.Sending
import CChat.Threads.Slots
import CChat.Threads.DirectSend
import CChat.Threads.Enrolment
import CChat.Threads.Identifiers
import CChat.Threads.Observers
import CChat.Threads.Mutexes
import CChat.Threads.Shutdown
import CChat.Threads.Sequential
import CChat.Threads.Feeds
import CChat.Threads.Replies
import CChat.Threads.Progress
import CChat.Threads.Queues
import CChat.Threads.Courses
import CChat.Threads.Heap
